import NawaraCore.Refund.RelaySystem

/-!
# Soundness of the mirror

The moves of the mirror are the ways of Payment's attempt, and the statuses an attempt went
through are a chain, so an answer is either behind the mirror or ahead of it.
-/

namespace NawaraCore.RefundRelays

open Refunds (RefundAttemptStatus canTransition)

/-! ## The ways of an attempt -/

section
variable {a b c : RefundAttemptStatus}

theorem allowed_of_transition (h : canTransition a b) : allowed a b := by
  revert h
  cases a <;> cases b <;> decide

theorem allowed_transition (h : allowed a b) (ht : canTransition b c) : allowed a c := by
  revert h ht
  cases a <;> cases b <;> cases c <;> decide

theorem allowed_first (h : allowed a c) :
    canTransition a c ∨ (a = .authorizationPending ∧ allowed .authorized c) ∨ (a = .authorized ∧ allowed .dispatching c) := by
  revert h
  cases a <;> cases c <;> decide

theorem allowed_iff : allowed a c ↔ Relation.TransGen (fun a b => canTransition a b = true) a c := by
  constructor
  · intro h
    have dispatched : ∀ {a}, a ≠ .authorizationPending → a ≠ .authorized → allowed a c → canTransition a c := by
      intro a hp ha h
      rcases allowed_first h with ht | ⟨rfl, -⟩ | ⟨rfl, -⟩
      · exact ht
      · exact absurd rfl hp
      · exact absurd rfl ha
    have authorized : allowed .authorized c → Relation.TransGen (fun a b => canTransition a b = true) .authorized c := by
      intro h
      rcases allowed_first h with ht | ⟨he, -⟩ | ⟨-, hd⟩
      · exact .single ht
      · cases he
      · exact .head (b := .dispatching) rfl (.single (dispatched nofun nofun hd))
    rcases allowed_first h with ht | ⟨rfl, hc⟩ | ⟨rfl, -⟩
    · exact .single ht
    · exact .head (b := .authorized) rfl (authorized hc)
    · exact authorized h
  · intro h
    induction h with
    | single ht => exact allowed_of_transition ht
    | tail _ ht ih => exact allowed_transition ih ht

theorem allowed_trans (h : allowed a b) (h' : allowed b c) : allowed a c := by
  rw [allowed_iff] at h h' ⊢
  exact h.trans h'

theorem allowed_chain (ha : a = c ∨ allowed a c) (hb : b = c ∨ allowed b c) : a = b ∨ allowed a b ∨ allowed b a := by
  revert ha hb
  cases a <;> cases b <;> cases c <;> decide

theorem unconsumedFinal_end (h : (RelayStatus.attempt a).unconsumedFinal) : allowed a b = false ∧ a.unauthorized := by
  revert h
  cases a <;> cases b <;> decide

end

theorem RelayStatus.allowed_trans {x y z : RelayStatus} (h : x.allowed y) (h' : y.allowed z) : x.allowed z := by
  cases x with
  | rejected => cases h
  | attempt x =>
    cases y with
    | rejected => cases h
    | attempt y =>
      cases z with
      | rejected => cases h'
      | attempt z => exact RefundRelays.allowed_trans h h'

theorem unconsumedFinal_stays {x y : RelayStatus} (h : x.unconsumedFinal) : x.allowed y = false := by
  cases x with
  | rejected => rfl
  | attempt x =>
    cases y with
    | rejected => rfl
    | attempt y => exact (unconsumedFinal_end h).1

/-! ## What a record was -/

def PaymentRecord.Was (record : PaymentRecord) : RelayStatus → Option PaymentRefusal → Prop
  | .attempt status, refusal => refusal = none ∧ ∃ now receiptId, record = .attempt now receiptId ∧ (status = now ∨ allowed status now)
  | .rejected, refusal => ∃ code, refusal = some code ∧ record = .refused code

section
variable {record : PaymentRecord} {status x y : RelayStatus} {refusal r r' : Option PaymentRefusal}

theorem PaymentRecord.Was.move (h : record.Was status refusal) (next : RefundAttemptStatus) (receiptId : Option Uuid) :
    (record.move next receiptId).Was status refusal := by
  cases status with
  | rejected =>
    obtain ⟨code, rfl, rfl⟩ := h
    exact ⟨code, rfl, rfl⟩
  | attempt status =>
    obtain ⟨rfl, now, stored, rfl, hs⟩ := h
    unfold PaymentRecord.move
    by_cases hm : canTransition now next ∧ (stored.isSome → receiptId = stored) ∧ next.unauthorized = receiptId.isNone
    · dsimp only
      rw [if_pos hm]
      refine ⟨rfl, next, receiptId, rfl, .inr ?_⟩
      rcases hs with rfl | hs
      · exact allowed_of_transition hm.1
      · exact allowed_transition hs hm.1
    · dsimp only
      rw [if_neg hm]
      exact ⟨rfl, now, stored, rfl, hs⟩

theorem PaymentRecord.Was.of_answers {outcome : RefundRelayOutcome} (h : record.answers outcome)
    (hn : outcome.next = some (status, refusal)) : record.Was status refusal := by
  cases outcome <;> cases hn <;> cases record <;>
    simp_all [PaymentRecord.answers, PaymentRecord.Was]

theorem PaymentRecord.Was.chain (hx : record.Was x r) (hy : record.Was y r') : x = y ∨ x.allowed y ∨ y.allowed x := by
  cases x with
  | rejected =>
    obtain ⟨code, -, rfl⟩ := hx
    cases y with
    | rejected => exact .inl rfl
    | attempt y =>
      obtain ⟨-, now, receiptId, he, -⟩ := hy
      cases he
  | attempt x =>
    obtain ⟨-, now, receiptId, rfl, hx⟩ := hx
    cases y with
    | rejected =>
      obtain ⟨code, -, he⟩ := hy
      cases he
    | attempt y =>
      obtain ⟨-, _, _, he, hy⟩ := hy
      cases he
      exact (allowed_chain hx hy).imp_left (congrArg _)

theorem PaymentRecord.Was.known (h : record.Was x r) : record ≠ .absent := by
  rintro rfl
  cases x with
  | rejected =>
    obtain ⟨_, -, he⟩ := h
    cases he
  | attempt x =>
    obtain ⟨-, _, _, he, -⟩ := h
    cases he

def PaymentRecord.Shaped (record : PaymentRecord) : Prop :=
  ∀ status receiptId, record = .attempt status receiptId → status.unauthorized = receiptId.isNone

theorem PaymentRecord.Shaped.move (h : record.Shaped) (next : RefundAttemptStatus) (receiptId : Option Uuid) : (record.move next receiptId).Shaped := by
  unfold PaymentRecord.move
  cases record with
  | attempt old stored =>
    dsimp only
    split
    · rename_i hm
      rintro _ _ ⟨⟩
      exact hm.2.2
    · exact h
  | _ => exact h

theorem PaymentRecord.Was.unconsumed (h : record.Was x r) (hx : x.unconsumedFinal) (hs : record.Shaped) : record.consumed = false := by
  cases x with
  | rejected =>
    obtain ⟨code, -, rfl⟩ := h
    rfl
  | attempt x =>
    obtain ⟨-, now, receiptId, rfl, hn⟩ := h
    obtain ⟨hend, hu⟩ := unconsumedFinal_end (b := now) hx
    have he : x = now := hn.resolve_right (by simp [hend])
    subst he
    have hn := (hs x receiptId rfl).symm.trans hu
    simpa [PaymentRecord.consumed] using hn

end

/-! ## An update of the mirror -/

def Relay.told (r : Relay) (status : RelayStatus) (refusal : Option PaymentRefusal) (now : Int) : Relay :=
  { r with
    attemptStatus := some status
    refusal
    statusAt := some now }

inductive Mirror (db : Db) (r : Relay) (status : RelayStatus) (refusal : Option PaymentRefusal) (now : Int) : Db → Prop
  | same (h : r.attemptStatus = some status) : Mirror db r status refusal now db
  | behind (old : RelayStatus) (ho : r.attemptStatus = some old) (h : old.allowed status = false) : Mirror db r status refusal now db
  | unmapped (h : ¬ ((status = .rejected ↔ refusal.isSome) ∧ ∀ c ∈ refusal, c ∈ refusalCodes)) : Mirror db r status refusal now db
  | held (hs : ∀ old ∈ r.attemptStatus, old.allowed status) (hl : (r.told status refusal now).live) (ho : db.otherLive r) :
    Mirror db r status refusal now db
  | written (hs : ∀ old ∈ r.attemptStatus, old.allowed status) (hr : status = .rejected ↔ refusal.isSome) (hc : ∀ c ∈ refusal, c ∈ refusalCodes)
    (hl : (r.told status refusal now).live → db.otherLive r = false) :
    Mirror db r status refusal now { db with relays := replaceRow Relay.id (r.told status refusal now) db.relays }

section
variable {db : Db} {id : Uuid} {r : Relay} {status : RelayStatus} {refusal : Option PaymentRefusal} {now : Int}

theorem mirror_cases (h : db.relay? id = some r) : Mirror db r status refusal now (db.mirror id status refusal now) := by
  unfold Db.mirror
  rw [h]
  dsimp only
  by_cases hsame : r.attemptStatus = some status
  · rw [if_pos hsame]
    exact .same hsame
  rw [if_neg hsame]
  unfold Db.updateRelay
  rw [if_neg hsame]
  by_cases hbehind : r.attemptStatus.any fun s => ¬ s.allowed status
  · rw [if_pos hbehind]
    obtain ⟨old, ho, hn⟩ := (Option.any_eq_true _ _).mp hbehind
    exact .behind old ho (by simpa using hn)
  rw [if_neg hbehind]
  have hs : ∀ old ∈ r.attemptStatus, old.allowed status := by
    intro old ho
    by_contra hn
    exact hbehind ((Option.any_eq_true _ _).mpr ⟨old, ho, by simpa using hn⟩)
  by_cases hmap : decide (status = .rejected) ≠ refusal.isSome ∨ refusal.any (· ∉ refusalCodes)
  · rw [if_pos hmap]
    refine .unmapped fun ⟨hr, hc⟩ => ?_
    rcases hmap with hne | hany
    · exact hne (Bool.eq_iff_iff.mpr (decide_eq_true_iff.trans hr))
    · obtain ⟨c, hcm, hn⟩ := (Option.any_eq_true _ _).mp hany
      exact of_decide_eq_true hn (hc c hcm)
  rw [if_neg hmap]
  obtain ⟨hr, hc⟩ := not_or.mp hmap
  dsimp only
  by_cases hheld : (r.told status refusal now).live ∧ db.otherLive r
  · have hh : ({ r with attemptStatus := some status, refusal, statusAt := some now } : Relay).live = true ∧ db.otherLive r = true := hheld
    rw [if_pos hh]
    exact .held hs hheld.1 hheld.2
  · have hh : ¬ (({ r with attemptStatus := some status, refusal, statusAt := some now } : Relay).live = true ∧ db.otherLive r = true) := hheld
    rw [if_neg hh]
    have hr : status = .rejected ↔ refusal.isSome := decide_eq_true_iff.symm.trans (Bool.eq_iff_iff.mp (not_not.mp hr))
    refine .written hs hr (fun c hcm => ?_) fun hl => by simpa [hl] using hheld
    by_contra hn
    exact hc ((Option.any_eq_true _ _).mpr ⟨c, hcm, decide_eq_true hn⟩)

end

end NawaraCore.RefundRelays
