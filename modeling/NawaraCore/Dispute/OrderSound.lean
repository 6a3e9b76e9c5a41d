import NawaraCore.Lib.Absorb
import NawaraCore.Dispute.ExposureSound

/-!
# Order of the notices of a dispute

The notices of one dispute take it from unknown to open and to its end. Which end, and with
which chargeback, depends on which notices there are, not on when or how often they come.
-/

namespace NawaraCore.Disputes

open Payments (Uuid PaymentError Admitted enforce enforce_ok enforce_bind_ok trim trim_iso isoCurrency maxSafeInteger)
open Refunds (failureCodeShape hasNoNul)

/-! ## How far a dispute has come -/

inductive Progress
  | unknown | opened | won
  | lost (chargeback : Option Chargeback)
deriving DecidableEq

def Progress.status : Progress → Option DisputeStatus
  | .unknown => none
  | .opened => some .opened
  | .won => some .won
  | .lost _ => some .lost

def Progress.chargeback : Progress → Option Chargeback
  | .lost c => c
  | _ => none

def DisputeNotice.progress (n : DisputeNotice) : Progress :=
  match n.kind with
  | .opened => .opened
  | .won => .won
  | .lost => .lost n.chargeback

def Progress.absorb (p : Progress) (n : DisputeNotice) : Progress :=
  match p with
  | .unknown | .opened => n.progress
  | .won => .won
  | .lost none => if n.kind = .lost then .lost n.chargeback else .lost none
  | .lost (some c) => .lost (some c)

structure Agree (m n : DisputeNotice) : Prop where
  outcome : m.kind ≠ .opened → n.kind ≠ .opened → m.kind = n.kind
  chargeback : m.chargeback ≠ none → n.chargeback ≠ none → m.chargeback = n.chargeback

section
variable {p : Progress} {m n : DisputeNotice} {c : Option Chargeback}

theorem absorb_lost (hn : n.kind = .lost) : (Progress.lost c).absorb n = .lost (c.or n.chargeback) := by
  cases c with
  | none => simp [Progress.absorb, hn]
  | some c => rfl

theorem absorb_other (hn : n.kind ≠ .lost) : (Progress.lost c).absorb n = .lost c := by
  cases c with
  | none => exact if_neg hn
  | some c => rfl

theorem Agree.or (h : Agree m n) : m.chargeback.or n.chargeback = n.chargeback.or m.chargeback := by
  have hc := h.chargeback
  cases hm : m.chargeback <;> cases hn : n.chargeback <;> simp_all

theorem progress_comm (h : Agree m n) : m.progress.absorb n = n.progress.absorb m := by
  have ho := h.outcome
  cases hm : m.kind <;> cases hn : n.kind <;> simp only [DisputeNotice.progress, hm, hn]
  case lost.lost => rw [absorb_lost hn, absorb_lost hm, h.or]
  case won.lost => exact absurd (ho (by simp [hm]) (by simp [hn])) (by simp [hm, hn])
  case lost.won => exact absurd (ho (by simp [hm]) (by simp [hn])) (by simp [hm, hn])
  case lost.opened => rw [absorb_other (by simp [hn])]; simp [Progress.absorb, DisputeNotice.progress, hm]
  case opened.lost => rw [absorb_other (by simp [hm])]; simp [Progress.absorb, DisputeNotice.progress, hn]
  all_goals simp [Progress.absorb, DisputeNotice.progress, hm, hn]

theorem lost_comm (h : Agree m n) :
    ((Progress.lost c).absorb m).absorb n = ((Progress.lost c).absorb n).absorb m := by
  by_cases hm : m.kind = .lost <;> by_cases hn : n.kind = .lost
  · rw [absorb_lost hm, absorb_lost hn, absorb_lost hn, absorb_lost hm, Option.or_assoc, Option.or_assoc, h.or]
  · rw [absorb_lost hm, absorb_other hn, absorb_other hn, absorb_lost hm]
  · rw [absorb_other hm, absorb_lost hn, absorb_other hm]
  · rw [absorb_other hm, absorb_other hn, absorb_other hm]

theorem absorb_comm (h : Agree m n) : (p.absorb m).absorb n = (p.absorb n).absorb m := by
  cases p with
  | unknown => exact progress_comm h
  | opened => exact progress_comm h
  | won => rfl
  | lost c => exact lost_comm h

theorem progress_absorb : n.progress.absorb n = n.progress := by
  cases hn : n.kind with
  | lost => simp only [DisputeNotice.progress, hn, absorb_lost hn, Option.or_self]
  | _ => simp [Progress.absorb, DisputeNotice.progress, hn]

theorem absorb_absorb : (p.absorb n).absorb n = p.absorb n := by
  cases p with
  | unknown => exact progress_absorb
  | opened => exact progress_absorb
  | won => rfl
  | lost c =>
    by_cases hn : n.kind = .lost
    · rw [absorb_lost hn, absorb_lost hn, Option.or_assoc, Option.or_self]
    · rw [absorb_other hn, absorb_other hn]

theorem absorb_keeps (h : p.absorb n = p) : (p.absorb m).absorb n = p.absorb m := by
  cases p with
  | unknown =>
    have hn : n.progress = .unknown := h
    unfold DisputeNotice.progress at hn
    split at hn <;> cases hn
  | opened =>
    have hk : n.kind = .opened := by
      have hn : n.progress = .opened := h
      unfold DisputeNotice.progress at hn
      split at hn
      · assumption
      · cases hn
      · cases hn
    show m.progress.absorb n = m.progress
    cases hm : m.kind with
    | lost => simp only [DisputeNotice.progress, hm, absorb_other (n := n) (by simp [hk])]
    | _ => simp [Progress.absorb, DisputeNotice.progress, hm, hk]
  | won => rfl
  | lost c =>
    by_cases hn : n.kind = .lost <;> by_cases hm : m.kind = .lost
    · rw [absorb_lost hn] at h
      injection h with h
      rw [absorb_lost hm, absorb_lost hn, Option.or_assoc]
      cases c with
      | some c => rfl
      | none =>
        have : n.chargeback = none := h
        simp [this]
    · rw [absorb_other hm, h]
    · rw [absorb_lost hm, absorb_other hn]
    · rw [absorb_other hm, absorb_other hn]

end

/-! ## What the notices are about -/

structure Subject where
  provider : String
  providerDisputeId : String
  amount : Int
  currency : String
  payment : PaymentRef
  attempt : AttemptRef

/-- The notification is stored, names the subject's attempt and says what the subject says. -/
structure Subject.Told (x : Subject) (s : Db) (id : Uuid) (n : DisputeNotice) : Prop where
  row : ∃ e, s.findNotification id = some e ∧ e.provider = x.provider ∧ e.notice = some n ∧
    s.books.findAttempt x.provider e.reference = some x.attempt
  payment : s.books.payments.find? (·.id = x.attempt.paymentId) = some x.payment
  parses : n.parses
  providerDisputeId : n.providerDisputeId = x.providerDisputeId
  amount : n.amount = x.amount
  currency : n.currency = x.currency

structure Binds (b : Books) (d : Dispute) : Prop where
  text : hasNoNul d.providerDisputeId
  length : 1 ≤ d.providerDisputeId.length ∧ d.providerDisputeId.length ≤ 256
  amount : 0 < d.amount ∧ d.amount ≤ maxSafeInteger
  currency : isoCurrency d.currency
  capture : b.captures.any fun f => f.id = d.captureFactId ∧ f.paymentId = d.paymentId ∧
    f.attemptId = d.attemptId ∧ f.provider = d.provider ∧ f.contested = false
  exposure : b.captures.any fun f => f.id = d.captureFactId ∧ d.currency = f.currency ∧ d.amount ≤ f.amount
  basis : b.payments.any fun p => p.id = d.paymentId && basisHolds b p d
  unlinked : d.chargebackFactId = none

theorem disputeChecks_iff {s : Db} {d : Dispute} : Admitted (disputeChecks s d) ↔ (∀ y ∈ s.disputes, y.id ≠ d.id) ∧
    (∀ y ∈ s.disputes, ¬ (y.provider = d.provider ∧ y.providerDisputeId = d.providerDisputeId)) ∧
    (d.reason.map failureCodeShape).getD true ∧ Binds s.books d := by
  simp only [Admitted, disputeChecks, List.forall_mem_cons, Bool.not_eq_true', List.any_eq_false, decide_eq_true_eq,
    List.not_mem_nil, false_implies, implies_true, and_true]
  constructor
  · rintro ⟨hid, htext, hlen, hamt, hcur, hreason, href, hcap, hexp, hbasis, hun⟩
    exact ⟨hid, href, hreason, htext, hlen, hamt, hcur, hcap, hexp, hbasis, hun⟩
  · rintro ⟨hid, href, hreason, htext, hlen, hamt, hcur, hcap, hexp, hbasis, hun⟩
    exact ⟨hid, htext, hlen, hamt, hcur, hreason, href, hcap, hexp, hbasis, hun⟩

structure Subject.Bound (x : Subject) (capture : Capture) (basis : CaptureBasis) (d : Dispute) : Prop where
  provider : d.provider = x.attempt.provider
  providerDisputeId : d.providerDisputeId = x.providerDisputeId
  paymentId : d.paymentId = x.payment.id
  attemptId : d.attemptId = x.attempt.id
  captureFactId : d.captureFactId = capture.id
  captureBasis : d.captureBasis = basis
  amount : d.amount = x.amount
  currency : d.currency = x.currency

/-- The capture that a dispute of the subject is bound to, when there is one. -/
structure Subject.Recordable (x : Subject) (b : Books) (capture : Capture) (basis : CaptureBasis) : Prop where
  attributed : attributeDispute b x.payment x.attempt = .bound capture basis
  exposure : x.currency = trim capture.currency ∧ x.amount ≤ capture.amount
  binds : ∃ d, x.Bound capture basis d ∧ Binds b d

section
variable {x : Subject} {b : Books} {capture : Capture} {basis : CaptureBasis} {d y : Dispute}

theorem Subject.Bound.binds (hd : x.Bound capture basis d) (hy : x.Bound capture basis y) (h : Binds b d)
    (hn : y.chargebackFactId = none) : Binds b y where
  text := hy.providerDisputeId ▸ hd.providerDisputeId ▸ h.text
  length := hy.providerDisputeId ▸ hd.providerDisputeId ▸ h.length
  amount := hy.amount ▸ hd.amount ▸ h.amount
  currency := hy.currency ▸ hd.currency ▸ h.currency
  capture := by
    rw [hy.captureFactId, hy.paymentId, hy.attemptId, hy.provider, ← hd.captureFactId, ← hd.paymentId, ← hd.attemptId,
      ← hd.provider]
    exact h.capture
  exposure := by
    rw [hy.captureFactId, hy.currency, hy.amount, ← hd.captureFactId, ← hd.currency, ← hd.amount]
    exact h.exposure
  basis := by
    have hsame : ∀ p, basisHolds b p y = basisHolds b p d := by
      intro p
      unfold basisHolds
      rw [hy.captureBasis, hy.attemptId, hy.paymentId, hy.captureFactId, hd.captureBasis, hd.attemptId, hd.paymentId,
        hd.captureFactId]
    simp only [hsame, hy.paymentId, ← hd.paymentId]
    exact h.basis
  unlinked := hn

end

structure Subject.Usable (x : Subject) (s : Db) (n : DisputeNotice) : Prop where
  untaken : ∀ c ∈ n.chargeback, s.chargebackTaken x.attempt.provider c.txnId = false
  text : ∀ c ∈ n.chargeback, hasNoNul c.txnId ∧ hasNoNul c.currency

open Classical in
noncomputable def Subject.take (x : Subject) (s : Db) (p : Progress) (n : DisputeNotice) : Progress :=
  if (∃ capture basis, x.Recordable s.books capture basis) ∧ x.Usable s n then p.absorb n else p

section
variable {x : Subject} {s : Db} {p : Progress} {m n : DisputeNotice}

theorem take_comm (h : Agree m n) : x.take s (x.take s p m) n = x.take s (x.take s p n) m := by
  unfold Subject.take
  split <;> split <;> first | exact absorb_comm h | rfl

theorem take_take : x.take s (x.take s p n) n = x.take s p n := by
  unfold Subject.take
  split
  · exact absorb_absorb
  · rfl

theorem take_keeps (h : x.take s p n = p) : x.take s (x.take s p m) n = x.take s p m := by
  unfold Subject.take at h ⊢
  split at h
  · rename_i hn
    rw [if_pos hn]
    split
    · exact absorb_keeps h
    · exact h
  · rename_i hn
    rw [if_neg hn]

end

def ChargebackFact.figures (f : ChargebackFact) : Chargeback := ⟨f.providerTxnId, f.amount, f.currency⟩

/-- The tables are those of `base` and, once the dispute is known, it and its chargeback. -/
inductive Stands (x : Subject) (base : Db) : Progress → Db → Prop
  | unknown (t : Db) (hd : t.disputes = base.disputes) (hf : t.chargebacks = base.chargebacks) : Stands x base .unknown t
  | known (p : Progress) (t : Db) (capture : Capture) (basis : CaptureBasis) (d : Dispute) (fact : Option ChargebackFact)
    (hr : x.Recordable base.books capture basis) (hb : x.Bound capture basis d) (hs : p.status = some d.status)
    (hc : fact.map (·.figures) = p.chargeback) (hl : d.chargebackFactId = fact.map (·.id))
    (hf : ∀ f ∈ fact, f.disputeId = d.id ∧ f.provider = d.provider ∧ f.paymentId = d.paymentId ∧ f.attemptId = d.attemptId)
    (hds : t.disputes = base.disputes ++ [d]) (hfs : t.chargebacks = base.chargebacks ++ fact.toList) : Stands x base p t

/-! ## A notice that counts is recorded -/

structure Subject.About (x : Subject) (v : Delivery) : Prop where
  payment : v.payment = x.payment
  attempt : v.attempt = x.attempt
  parses : v.notice.parses
  providerDisputeId : v.notice.providerDisputeId = x.providerDisputeId
  amount : v.notice.amount = x.amount
  currency : v.notice.currency = x.currency

variable {provider : String} {disposition : Disposition} {reason : Option Reason} {id : Option Uuid} {capture : Capture}

variable {basis : CaptureBasis}

section
variable {x : Subject} {base s t : Db} {v : Delivery} {d : Dispute} {n : DisputeNotice} {c : Chargeback}

theorem parses_reason (h : n.parses) : (n.reason.map failureCodeShape).getD true := by
  simp only [DisputeNotice.parses, Bool.and_eq_true] at h
  exact h.1.2

theorem parses_lost (h : n.parses) (hc : n.chargeback = some c) : n.kind = .lost := by
  simp only [DisputeNotice.parses, hc, Option.all_some, Bool.and_eq_true, decide_eq_true_eq] at h
  exact h.2.1.1.1

theorem parses_shape (h : n.parses) (hc : n.chargeback = some c) (ht : hasNoNul c.txnId ∧ hasNoNul c.currency) :
    chargebackShape c := by
  simp only [DisputeNotice.parses, hc, Option.all_some, Bool.and_eq_true, decide_eq_true_eq, isReference, isAmount,
    isCurrency] at h
  obtain ⟨-, ⟨⟨-, href⟩, hamt⟩, hcur⟩ := h
  simp only [chargebackShape, decide_eq_true_eq]
  exact ⟨length_pos_of_utf16Length href.1, Nat.le_trans (length_le_utf16Length _) href.2, hamt.1, hamt.2,
    length_pos_of_utf16Length hcur.1, Nat.le_trans (length_le_utf16Length _) hcur.2, ht.1, ht.2⟩

theorem parses_currency (h : n.parses) : 1 ≤ n.currency.length ∧ n.currency.length ≤ 16 := by
  simp only [DisputeNotice.parses, Bool.and_eq_true, decide_eq_true_eq, isCurrency] at h
  exact ⟨length_pos_of_utf16Length h.1.1.2.1, Nat.le_trans (length_le_utf16Length _) h.1.1.2.2⟩

theorem loss_eq (h : n.parses) : n.loss = n.chargeback := by
  unfold DisputeNotice.loss
  split
  · rfl
  · rename_i hk
    cases hc : n.chargeback with
    | none => rfl
    | some c => exact absurd (parses_lost h hc) hk

theorem linkChargeback_succeeds (hd : d ∈ s.disputes) (hs : d.status = .lost) (hn : d.chargebackFactId = none)
    (hp : d.paymentId = v.payment.id) (hfresh : ∀ f ∈ s.chargebacks, f.id ≠ v.freshFactId)
    (htaken : s.chargebackTaken d.provider c.txnId = false) (hshape : chargebackShape c) :
    ∃ t, linkChargeback s d c v = .ok (t, v.freshFactId) := by
  simp only [chargebackShape, decide_eq_true_eq] at hshape
  obtain ⟨htxn, htxnmax, hpos, hmax, hcur, hcurmax, hnul, hcurnul⟩ := hshape
  refine ⟨_, bind_eq_ok.mpr ⟨_, bind_eq_ok.mpr ⟨(), enforce_ok.mpr ?_, rfl⟩,
    bind_eq_ok.mpr ⟨_, bind_eq_ok.mpr ⟨(), enforce_ok.mpr ?_, rfl⟩, rfl⟩⟩⟩
  · simp only [chargebackChecks, List.forall_mem_cons, Bool.not_eq_true', List.any_eq_false, decide_eq_true_eq,
      List.not_mem_nil, false_implies, implies_true, and_true, List.any_eq_true]
    simp only [Db.chargebackTaken, List.any_eq_false, decide_eq_true_eq] at htaken
    exact ⟨hfresh, ⟨hnul, hcurnul⟩, ⟨htxn, htxnmax⟩, ⟨hpos, hmax⟩, ⟨hcur, hcurmax⟩, htaken, d, hd, rfl, hp, rfl, rfl, hs⟩
  · simp [disputeUpdateChecks, hn, hs, Delivery.fact]

theorem close_succeeds (hd : d ∈ s.disputes) (hn : d.chargebackFactId = none) (hp : d.paymentId = v.payment.id)
    (hfresh : ∀ f ∈ s.chargebacks, f.id ≠ v.freshFactId) (hparse : v.notice.parses)
    (htaken : ∀ c ∈ v.notice.chargeback, s.chargebackTaken d.provider c.txnId = false)
    (htext : ∀ c ∈ v.notice.chargeback, hasNoNul c.txnId ∧ hasNoNul c.currency) : ∃ t, close s d v = .ok t := by
  unfold close
  split
  · exact ⟨s, rfl⟩
  rename_i hs
  split
  · exact ⟨_, rfl⟩
  · rename_i c hc
    obtain ⟨t, ht⟩ := linkChargeback_succeeds hd (not_not.mp hs) hn hp hfresh (htaken c hc)
      (parses_shape hparse hc (htext c hc))
    exact ⟨_, bind_eq_ok.mpr ⟨_, ht, rfl⟩⟩

theorem taken_eq_false (h : ∀ c ∈ n.chargeback, s.chargebackTaken provider c.txnId = false) :
    s.taken provider n = false := by
  unfold Db.taken
  cases hc : n.chargeback with
  | none => rfl
  | some c => exact h c hc

theorem onNew_succeeds (ha : attributeDispute s.books v.payment v.attempt = .bound capture basis)
    (hx : v.notice.currency = trim capture.currency ∧ v.notice.amount ≤ capture.amount)
    (hc : Admitted (disputeChecks s (v.dispute capture basis))) (hfresh : ∀ f ∈ s.chargebacks, f.id ≠ v.freshFactId)
    (hparse : v.notice.parses) (htaken : ∀ c ∈ v.notice.chargeback, s.chargebackTaken v.attempt.provider c.txnId = false)
    (htext : ∀ c ∈ v.notice.chargeback, hasNoNul c.txnId ∧ hasNoNul c.currency) :
    ∃ t, onNew s v = .ok (t, .observed .applied none (some v.freshDisputeId)) := by
  have hmis : ¬ (v.notice.currency ≠ trim capture.currency ∨ capture.amount < v.notice.amount) := by
    rw [not_or, not_not, Int.not_lt]
    exact hx
  have hclose : ∃ t, (if (v.dispute capture basis).status ≠ .opened then
      close { s with
        disputes := s.disputes ++ [v.dispute capture basis]
        outbox := s.outbox ++ [.opened v.freshDisputeId] } (v.dispute capture basis) v
      else .ok { s with
        disputes := s.disputes ++ [v.dispute capture basis]
        outbox := s.outbox ++ [.opened v.freshDisputeId] }) = .ok t := by
    split
    · exact close_succeeds (List.mem_append_right _ (List.mem_singleton_self _)) rfl rfl hfresh hparse htaken htext
    · exact ⟨_, rfl⟩
  obtain ⟨t, ht⟩ := hclose
  refine ⟨t, ?_⟩
  unfold onNew
  rw [ha]
  dsimp only
  rw [if_neg hmis, taken_eq_false htaken, if_neg Bool.false_ne_true]
  exact bind_eq_ok.mpr ⟨_, bind_eq_ok.mpr ⟨(), enforce_ok.mpr hc, rfl⟩, bind_eq_ok.mpr ⟨t, ht, rfl⟩⟩

theorem observationShape_known
    (hparse : v.notice.parses)
    (h : (disposition, reason) ∈ [(Disposition.applied, none), (.applied, some .chargebackEvidence), (.duplicate, none),
      (.duplicate, some .afterTerminal), (.conflict, some .terminalContradiction), (.conflict, some .chargebackMismatch)]) :
    observationShape (v.observation provider disposition reason id) := by
  have hlost : v.notice.chargeback = none ∨ v.notice.kind = .lost := by
    cases hc : v.notice.chargeback with
    | none => exact .inl rfl
    | some c => exact .inr (parses_lost hparse hc)
  simp only [List.mem_cons, Prod.mk.injEq, List.not_mem_nil, or_false] at h
  unfold observationShape
  rw [Bool.and_eq_true]
  refine ⟨decide_eq_true hlost, ?_⟩
  rcases h with ⟨rfl, rfl⟩ | ⟨rfl, rfl⟩ | ⟨rfl, rfl⟩ | ⟨rfl, rfl⟩ | ⟨rfl, rfl⟩ | ⟨rfl, rfl⟩ <;> rfl

def Dispute.furtheredBy (d : Dispute) (n : DisputeNotice) : Prop :=
  (d.status = .opened ∧ n.kind ≠ .opened) ∨
    (d.status = .lost ∧ d.chargebackFactId = none ∧ n.kind = .lost ∧ n.chargeback ≠ none)

theorem onKnown_succeeds (provider : String) (hd : d ∈ s.disputes) (ha : AboutDispute v d) (hopen : d.status = .opened → d.chargebackFactId = none)
    (hfresh : ∀ f ∈ s.chargebacks, f.id ≠ v.freshFactId) (hparse : v.notice.parses)
    (htaken : d.furtheredBy v.notice → ∀ c ∈ v.notice.chargeback, s.chargebackTaken d.provider c.txnId = false)
    (htext : ∀ c ∈ v.notice.chargeback, hasNoNul c.txnId ∧ hasNoNul c.currency) :
    ∃ t disposition reason, onKnown s d v = .ok (t, .observed disposition reason (some d.id)) ∧
      observationShape (v.observation provider disposition reason (some d.id)) ∧
      (d.furtheredBy v.notice → disposition = .applied) := by
  have hbind : ¬ (d.paymentId ≠ v.payment.id ∨ d.attemptId ≠ v.attempt.id) := by
    rw [not_or, not_not, not_not]
    exact ⟨ha.paymentId, ha.attemptId⟩
  have hexp : ¬ (d.amount ≠ v.notice.amount ∨ trim d.currency ≠ v.notice.currency) := by
    rw [not_or, not_not, not_not]
    exact ⟨ha.amount, ha.currency⟩
  unfold onKnown
  dsimp only
  rw [if_neg hbind, if_neg hexp]
  by_cases hk : v.notice.kind = .opened
  · rw [if_pos hk]
    refine ⟨s, .duplicate, _, rfl, observationShape_known hparse ?_, fun hf => ?_⟩
    · split <;> decide
    · rcases hf with ⟨-, hne⟩ | ⟨-, -, hl, -⟩
      · exact absurd hk hne
      · rw [hk] at hl; cases hl
  rw [if_neg hk]
  by_cases hs : d.status = .opened
  · have hnew := htaken (.inl ⟨hs, hk⟩)
    rw [if_pos hs, taken_eq_false hnew, if_neg Bool.false_ne_true]
    let e : Dispute := { d with status := v.notice.kind.status, providerClosedAt := v.notice.providerOccurredAt }
    have hupdate : Admitted (disputeUpdateChecks s d e) := by
      have hstatus : e.status ≠ d.status := by
        rw [hs]
        show v.notice.kind.status ≠ .opened
        cases hv : v.notice.kind with
        | opened => exact absurd hv hk
        | won => nofun
        | lost => nofun
      simp only [Admitted, disputeUpdateChecks, List.forall_mem_cons, decide_eq_true_eq, List.not_mem_nil, false_implies,
        implies_true, and_true]
      exact ⟨.inr hs, .inl hstatus.symm, .inl (hopen hs), .inl (hopen hs), .inl (hopen hs)⟩
    have he : e ∈ (s.replaceDispute e).disputes := replaceRow_mem (k := fun y : Dispute => y.id) hd rfl
    obtain ⟨t, ht⟩ := close_succeeds he (hopen hs) ha.paymentId hfresh hparse hnew htext
    refine ⟨t, .applied, none, bind_eq_ok.mpr ⟨_, bind_eq_ok.mpr ⟨(), enforce_ok.mpr hupdate, rfl⟩, bind_eq_ok.mpr ⟨t, ht, rfl⟩⟩,
      observationShape_known hparse (by decide), fun _ => rfl⟩
  rw [if_neg hs]
  by_cases hsame : d.status = v.notice.kind.status
  · rw [if_neg (not_not.mpr hsame)]
    by_cases hloss : v.notice.kind = .lost ∧ v.notice.chargeback ≠ none
    · obtain ⟨hl, hne⟩ := hloss
      obtain ⟨c, hc⟩ := Option.ne_none_iff_exists'.mp hne
      have hdl : d.status = .lost := by rw [hsame, hl]; rfl
      rw [if_pos hl, hc]
      dsimp only
      cases hf : d.chargebackFactId with
      | none =>
        have hnew := htaken (.inr ⟨hdl, hf, hl, hne⟩) c hc
        obtain ⟨t, ht⟩ := linkChargeback_succeeds hd hdl hf ha.paymentId hfresh hnew (parses_shape hparse hc (htext c hc))
        dsimp only
        rw [hnew, if_neg Bool.false_ne_true]
        exact ⟨t, .applied, some .chargebackEvidence, bind_eq_ok.mpr ⟨_, ht, rfl⟩, observationShape_known hparse (by decide),
          fun _ => rfl⟩
      | some factId =>
        have hno : ¬ d.furtheredBy v.notice := by
          rintro (⟨ho, -⟩ | ⟨-, hn, -⟩)
          · exact hs ho
          · rw [hf] at hn; cases hn
        dsimp only
        split
        · exact ⟨s, .duplicate, none, rfl, observationShape_known hparse (by decide), fun h => absurd h hno⟩
        · exact ⟨s, .conflict, _, rfl, observationShape_known hparse (by decide), fun h => absurd h hno⟩
    · have hnone : (if v.notice.kind = .lost then v.notice.chargeback else none) = none := by
        by_cases hl : v.notice.kind = .lost
        · rw [if_pos hl]
          by_contra hne
          exact hloss ⟨hl, hne⟩
        · exact if_neg hl
      rw [hnone]
      refine ⟨s, .duplicate, none, rfl, observationShape_known hparse (by decide), fun hf => ?_⟩
      rcases hf with ⟨ho, -⟩ | ⟨-, -, hl, hne⟩
      · exact absurd ho hs
      · exact absurd ⟨hl, hne⟩ hloss
  · rw [if_pos hsame]
    refine ⟨s, .conflict, _, rfl, observationShape_known hparse (by decide), fun hf => ?_⟩
    rcases hf with ⟨ho, -⟩ | ⟨hdl, -, hl, -⟩
    · exact absurd ho hs
    · exact absurd (by rw [hdl, hl]; rfl) hsame

end

/-! ## The life of a dispute -/

/-- `y` is `d` at a later time. -/
structure Later (d y : Dispute) : Prop where
  same : SameDispute d y
  status : y.status = d.status ∨ d.status = .opened
  chargeback : d.chargebackFactId = none ∨ y.chargebackFactId = d.chargebackFactId

theorem Later.refl (d : Dispute) : Later d d := ⟨⟨rfl, rfl, rfl, rfl, rfl, rfl, rfl, rfl, rfl⟩, .inl rfl, .inr rfl⟩

variable {d y z : Dispute}

theorem SameDispute.trans (h : SameDispute d y) (h' : SameDispute y z) : SameDispute d z where
  id := h'.id.trans h.id
  provider := h'.provider.trans h.provider
  providerDisputeId := h'.providerDisputeId.trans h.providerDisputeId
  paymentId := h'.paymentId.trans h.paymentId
  attemptId := h'.attemptId.trans h.attemptId
  captureFactId := h'.captureFactId.trans h.captureFactId
  captureBasis := h'.captureBasis.trans h.captureBasis
  amount := h'.amount.trans h.amount
  currency := h'.currency.trans h.currency

theorem Later.trans (h : Later d y) (h' : Later y z) : Later d z where
  same := h.same.trans h'.same
  status := by
    rcases h'.status with hz | hy
    · rw [hz]; exact h.status
    · rcases h.status with hd | hd
      · exact .inr (hd ▸ hy)
      · exact .inr hd
  chargeback := by
    rcases h.chargeback with hd | hd
    · exact .inl hd
    · rcases h'.chargeback with hy | hy
      · exact .inl (hd ▸ hy)
      · exact .inr (hy.trans hd)

section
variable {s t : Db} {v : Delivery} {d : Dispute} {o : Outcome}

theorem Change.later (h : DisputeInv s) (hc : Change s v o t) (hd : d ∈ s.disputes) : ∃ y ∈ t.disputes, Later d y := by
  cases hc with
  | noted o ho => exact ⟨d, hd, Later.refl d⟩
  | recorded capture basis fact hb hx hc hf => exact ⟨d, List.mem_append_left _ hd, Later.refl d⟩
  | closed e fact he ha hs hk hf =>
    by_cases hid : d.id = e.id
    · obtain rfl := eq_of_key h.ids hd he hid
      refine ⟨_, replaceRow_mem hd rfl, ⟨⟨rfl, rfl, rfl, rfl, rfl, rfl, rfl, rfl, rfl⟩, .inr hs, .inl ?_⟩⟩
      exact (h.disputes d hd).unfunded (by rw [hs]; nofun)
    · exact ⟨d, replaceRow_other hd hid, Later.refl d⟩
  | evidence e fact he ha hs hn hf =>
    by_cases hid : d.id = e.id
    · obtain rfl := eq_of_key h.ids hd he hid
      exact ⟨_, replaceRow_mem hd rfl, ⟨⟨rfl, rfl, rfl, rfl, rfl, rfl, rfl, rfl, rfl⟩, .inl rfl, .inl hn⟩⟩
    · exact ⟨d, replaceRow_other hd hid, Later.refl d⟩

theorem DbStep.later (h : DisputeInv s) (hs : DbStep s t) (hd : d ∈ s.disputes) : ∃ y ∈ t.disputes, Later d y := by
  cases hs with
  | ingested e n u he hn hi =>
    cases hi with
    | unchanged => exact ⟨d, hd, Later.refl d⟩
    | observed v disposition reason disputeId u hv hp hobs hc =>
      obtain ⟨y, hy, hl⟩ := hc.later h hd
      exact ⟨y, hy, hl⟩
  | _ => exact ⟨d, hd, Later.refl d⟩

end

theorem Runs.later {enabled : Bool} {as : List Action} : ∀ {s : Sys}, Runs enabled s → ∀ d ∈ s.db.disputes,
    ∃ y ∈ (Disputes.run enabled s as).db.disputes, Later d y := by
  induction as with
  | nil => exact fun _ d hd => ⟨d, hd, Later.refl d⟩
  | cons a as ih =>
    intro s h d hd
    obtain ⟨y, hy, hl⟩ := (step_dbStep enabled h.disputes a).later h.disputes hd
    have hnext : Runs enabled (step enabled s a) := .step h ⟨a, rfl⟩
    obtain ⟨z, hz, hl'⟩ := ih hnext y hy
    exact ⟨z, hz, hl.trans hl'⟩

/-! ## One delivery -/

variable {fact : Option ChargebackFact} {r : Ingestion}

section
variable {x : Subject} {base s t : Db} {v : Delivery} {p : Progress} {o : Outcome} {n : DisputeNotice} {d : Dispute}

theorem Subject.About.bound (h : x.About v) (capture : Capture) (basis : CaptureBasis) : x.Bound capture basis (v.dispute capture basis) where
  provider := congrArg AttemptRef.provider h.attempt
  providerDisputeId := h.providerDisputeId
  paymentId := congrArg PaymentRef.id h.payment
  attemptId := congrArg AttemptRef.id h.attempt
  captureFactId := rfl
  captureBasis := rfl
  amount := h.amount
  currency := h.currency

theorem progress_status : n.progress.status = some n.kind.status := by
  unfold DisputeNotice.progress
  cases n.kind <;> rfl

theorem progress_chargeback : n.progress.chargeback = n.loss := by
  unfold DisputeNotice.progress DisputeNotice.loss
  cases n.kind <;> rfl

variable {cs : List ChargebackFact}

theorem Reported.figures (h : Reported cs v d fact) :
    fact.map (·.figures) = v.notice.loss := by
  rw [h.reported]
  cases v.notice.loss <;> rfl

theorem Reported.of (h : Reported cs v d fact)
    (hp : d.paymentId = v.payment.id) : ∀ f ∈ fact, f.disputeId = d.id ∧ f.provider = d.provider ∧ f.paymentId = d.paymentId ∧
      f.attemptId = d.attemptId := by
  intro f hf
  obtain ⟨c, -, rfl⟩ := Option.map_eq_some_iff.mp (h.reported.symm.trans hf)
  exact ⟨rfl, rfl, hp.symm, rfl⟩

theorem Reported.usable (h : Reported base.chargebacks v d fact)
    (hp : v.notice.parses) (hd : d.provider = x.attempt.provider) : x.Usable base v.notice := by
  have hfact : ∀ c ∈ v.notice.chargeback, v.fact d c ∈ fact := by
    intro c hc
    rw [h.reported, loss_eq hp, show v.notice.chargeback = some c from hc]
    rfl
  refine ⟨fun c hc => ?_, fun c hc => h.text _ (hfact c hc)⟩
  simp only [Db.chargebackTaken, List.any_eq_false, decide_eq_true_eq]
  exact fun g hg he => h.untaken _ (hfact c hc) g hg ⟨he.1.trans hd.symm, he.2⟩

theorem take_pos (hr : x.Recordable base.books capture basis)
    (hu : x.Usable base n) : x.take base p n = p.absorb n :=
  if_pos ⟨⟨capture, basis, hr⟩, hu⟩

def Subject.New (x : Subject) (base : Db) : Prop :=
  ∀ d ∈ base.disputes, ¬ (d.provider = x.attempt.provider ∧ d.providerDisputeId = x.providerDisputeId)

theorem Change.stands (hs : Stands x base p s) (hi : DisputeInv s) (hb : s.books = base.books) (hnew : x.New base)
    (ha : x.About v) (hnote : (∀ r id, o ≠ .observed .applied r id) → x.take base p v.notice = p) (hc : Change s v o t) :
    Stands x base (x.take base p v.notice) t := by
  have hold : ∀ d ∈ base.disputes, ¬ AboutDispute v d := fun d hd habout =>
    hnew d hd ⟨habout.provider.trans (congrArg AttemptRef.provider ha.attempt), habout.providerDisputeId.trans ha.providerDisputeId⟩
  cases hc with
  | noted o ho => rw [hnote ho]; exact hs
  | recorded capture basis fact hbound hx hc hf =>
    obtain ⟨hid, href, -, hbinds⟩ := disputeChecks_iff.mp hc
    rw [hb] at hbound hbinds
    have hd := ha.bound capture basis
    have hr : x.Recordable base.books capture basis :=
      ⟨ha.payment ▸ ha.attempt ▸ hbound, ha.currency ▸ ha.amount ▸ hx, _, hd, hbinds⟩
    cases hs with
    | known p t capture' basis' d fact' hr' hb' hs' hc' hl' hf' hds hfs =>
      refine absurd ⟨hb'.provider.trans hd.provider.symm, hb'.providerDisputeId.trans hd.providerDisputeId.symm⟩ (href d ?_)
      rw [hds]
      exact List.mem_append_right _ (List.mem_singleton_self d)
    | unknown t hds hfs =>
      rw [hfs] at hf
      rw [take_pos hr (hf.usable ha.parses hd.provider)]
      exact .known _ _ capture basis ((v.dispute capture basis).link fact) fact hr
        ⟨hd.provider, hd.providerDisputeId, hd.paymentId, hd.attemptId, hd.captureFactId, hd.captureBasis, hd.amount, hd.currency⟩
        progress_status (hf.figures.trans progress_chargeback.symm) rfl (hf.of rfl) (congrArg (· ++ _) hds) (congrArg (· ++ _) hfs)
  | closed d fact hd habout hst hk hf =>
    cases hs with
    | unknown t hds hfs => exact absurd habout (hold d (hds ▸ hd))
    | known p t capture basis d' fact' hr hb' hs' hc' hl' hf' hds hfs =>
      have hd' : d = d' := by
        rw [hds] at hd
        rcases mem_append_row hd with hd | hd
        · exact absurd habout (hold d hd)
        · exact hd
      subst hd'
      have hnone : fact' = none := by
        have hn := (hi.disputes d hd).unfunded (by rw [hst]; nofun)
        exact Option.map_eq_none_iff.mp (hl'.symm.trans hn)
      subst hnone
      rw [Option.toList_none, List.append_nil] at hfs
      rw [hfs] at hf
      have hp : p = .opened := by
        rw [hst] at hs'
        cases p <;> simp_all [Progress.status]
      subst hp
      rw [take_pos hr (hf.usable ha.parses hb'.provider)]
      have hids := hi.ids
      rw [hds, List.map_append, List.nodup_append'] at hids
      have hne : ∀ y ∈ base.disputes, y.id ≠ d.id := fun y hy he =>
        hids.2.2 (List.mem_map_of_mem hy) (List.mem_map.mpr ⟨d, List.mem_singleton_self d, he.symm⟩)
      refine .known _ _ capture basis ((d.closed v.notice).link fact) fact hr
        ⟨hb'.provider, hb'.providerDisputeId, hb'.paymentId, hb'.attemptId, hb'.captureFactId, hb'.captureBasis, hb'.amount, hb'.currency⟩
        progress_status (hf.figures.trans progress_chargeback.symm) rfl (hf.of habout.paymentId) ?_ (congrArg (· ++ _) hfs)
      show replaceRow _ _ s.disputes = _
      rw [hds]
      exact replaceRow_append (k := fun y : Dispute => y.id) hne rfl
  | evidence d fact hd habout hst hn hf =>
    cases hs with
    | unknown t hds hfs => exact absurd habout (hold d (hds ▸ hd))
    | known p t capture basis d' fact' hr hb' hs' hc' hl' hf' hds hfs =>
      have hd' : d = d' := by
        rw [hds] at hd
        rcases mem_append_row hd with hd | hd
        · exact absurd habout (hold d hd)
        · exact hd
      subst hd'
      have hnone : fact' = none := Option.map_eq_none_iff.mp (hl'.symm.trans hn)
      subst hnone
      rw [Option.toList_none, List.append_nil] at hfs
      rw [hfs] at hf
      have hp : p = .lost none := by
        rw [hst] at hs'
        cases p <;> simp_all [Progress.status, Progress.chargeback]
      subst hp
      have hk : v.notice.kind = .lost := hf.lost (by simp)
      rw [take_pos hr (hf.usable ha.parses hb'.provider), absorb_lost hk, Option.none_or]
      have hids := hi.ids
      rw [hds, List.map_append, List.nodup_append'] at hids
      have hne : ∀ y ∈ base.disputes, y.id ≠ d.id := fun y hy he =>
        hids.2.2 (List.mem_map_of_mem hy) (List.mem_map.mpr ⟨d, List.mem_singleton_self d, he.symm⟩)
      refine .known _ _ capture basis (d.link (some fact)) (some fact) hr
        ⟨hb'.provider, hb'.providerDisputeId, hb'.paymentId, hb'.attemptId, hb'.captureFactId, hb'.captureBasis, hb'.amount, hb'.currency⟩
        (congrArg some hst.symm) (hf.figures.trans (loss_eq ha.parses)) rfl (hf.of habout.paymentId) ?_ (congrArg (· ++ _) hfs)
      show replaceRow _ _ s.disputes = _
      rw [hds]
      exact replaceRow_append (k := fun y : Dispute => y.id) hne rfl

def dispatch (s : Db) (provider : String) (v : Delivery) : Except PaymentError (Db × Outcome) :=
  match s.findDispute provider v.notice.providerDisputeId with
  | some d => onKnown s d v
  | none => onNew s v

theorem Change.applied (hc : Change s v (.observed .applied reason id) t) :
    ∃ y ∈ t.disputes, id = some y.id ∧ y.provider = v.attempt.provider ∧ y.providerDisputeId = v.notice.providerDisputeId := by
  generalize ho : Outcome.observed .applied reason id = o at hc
  cases hc with
  | noted o hne => exact absurd ho.symm (hne reason id)
  | recorded capture basis fact hb hx hc hf =>
    injection ho with _ _ hid
    exact ⟨_, List.mem_append_right _ (List.mem_singleton_self _), hid, rfl, rfl⟩
  | closed d fact hd ha hs hk hf =>
    injection ho with _ _ hid
    exact ⟨_, replaceRow_mem hd rfl, hid, ha.provider, ha.providerDisputeId⟩
  | evidence d fact hd ha hs hn hf =>
    injection ho with _ _ hid
    exact ⟨_, replaceRow_mem hd rfl, hid, ha.provider, ha.providerDisputeId⟩

theorem furthered_of_absorb (hs : p.status = some d.status)
    (hc : p.chargeback = none ↔ d.chargebackFactId = none) (hne : p.absorb n ≠ p) : d.furtheredBy n := by
  cases p with
  | unknown => cases hs
  | opened =>
    refine .inl ⟨(Option.some.inj hs).symm, fun hk => hne ?_⟩
    show n.progress = _
    rw [DisputeNotice.progress, hk]
  | won => exact absurd rfl hne
  | lost c =>
    by_cases hk : n.kind = .lost
    · rw [absorb_lost hk] at hne
      cases c with
      | none => exact .inr ⟨(Option.some.inj hs).symm, hc.mp rfl, hk, fun hn => hne (by rw [hn]; rfl)⟩
      | some c => exact absurd rfl hne
    · exact absurd (absorb_other hk) hne

/-- The outcome is observed, at a dispute of the subject, and is applied when the notice takes the dispute further. -/
structure Observable (x : Subject) (s : Db) (p : Progress) (v : Delivery) (t : Db) (disposition : Disposition)
    (reason : Option Reason) (id : Option Uuid) : Prop where
  change : dispatch s x.attempt.provider v = .ok (t, .observed disposition reason id)
  shape : observationShape (v.observation x.attempt.provider disposition reason id)
  dispute : ∃ y ∈ t.disputes, id = some y.id ∧ y.provider = x.attempt.provider ∧ y.providerDisputeId = x.providerDisputeId
  applied : p.absorb v.notice ≠ p → disposition = .applied

theorem dispatch_change (hi : DisputeInv s) (ha : v.attempt.provider = x.attempt.provider)
    (h : dispatch s x.attempt.provider v = .ok (t, o)) : Change s v o t := by
  unfold dispatch at h
  split at h
  · rename_i d hd
    have hmem := List.mem_of_find?_eq_some hd
    have href := List.find?_some hd
    simp only [decide_eq_true_eq] at href
    exact onKnown_change (fun hs => (hi.disputes d hmem).unfunded (by rw [hs]; nofun)) hmem ⟨href.1.trans ha.symm, href.2⟩ h
  · exact onNew_change h

section
variable (hs : Stands x base p s) (hi : DisputeInv s) (hb : s.books = base.books) (hnew : x.New base) (ha : x.About v)
  {capture : Capture} {basis : CaptureBasis} (hr : x.Recordable base.books capture basis) (hu : x.Usable base v.notice)
  (hfd : ∀ d ∈ s.disputes, d.id ≠ v.freshDisputeId) (hff : ∀ f ∈ s.chargebacks, f.id ≠ v.freshFactId)
include hs hi hb hnew ha hr hu hfd hff

theorem dispatch_succeeds : ∃ t disposition reason id, Observable x s p v t disposition reason id := by
  have hprov : v.attempt.provider = x.attempt.provider := congrArg AttemptRef.provider ha.attempt
  cases hs with
  | unknown s hds hfs =>
    have hnone : s.findDispute x.attempt.provider v.notice.providerDisputeId = none := by
      unfold Db.findDispute
      rw [hds, ha.providerDisputeId, List.find?_eq_none]
      simpa [Subject.New] using hnew
    obtain ⟨d, hd, hbinds⟩ := hr.binds
    have hv := ha.bound capture basis
    have hchecks : Admitted (disputeChecks s (v.dispute capture basis)) := by
      refine disputeChecks_iff.mpr ⟨hfd, fun y hy he => ?_, parses_reason ha.parses, hb ▸ hd.binds hv hbinds rfl⟩
      exact hnew y (hds ▸ hy) ⟨he.1.trans hv.provider, he.2.trans hv.providerDisputeId⟩
    obtain ⟨t, ht⟩ := onNew_succeeds (by rw [hb, ha.payment, ha.attempt]; exact hr.attributed)
      (by rw [ha.currency, ha.amount]; exact hr.exposure) hchecks hff ha.parses
      (fun c hc => by rw [hprov]; unfold Db.chargebackTaken; rw [hfs]; exact hu.untaken c hc) hu.text
    have hdispatch : dispatch s x.attempt.provider v = .ok (t, .observed .applied none (some v.freshDisputeId)) := by
      unfold dispatch
      rw [hnone]
      exact ht
    refine ⟨t, .applied, none, some v.freshDisputeId, hdispatch, observationShape_known ha.parses (by decide), ?_, fun _ => rfl⟩
    obtain ⟨y, hy, hid, hyp, hyd⟩ := (onNew_change ht).applied
    exact ⟨y, hy, hid, hyp.trans hprov, hyd.trans ha.providerDisputeId⟩
  | known p s capture' basis' d fact hr' hb' hst hc hl hf hds hfs =>
    have hmem : d ∈ s.disputes := by
      rw [hds]
      exact List.mem_append_right _ (List.mem_singleton_self d)
    have hfind : s.findDispute x.attempt.provider v.notice.providerDisputeId = some d := by
      unfold Db.findDispute
      rw [hds, ha.providerDisputeId, List.find?_append, List.find?_eq_none.mpr (by simpa [Subject.New] using hnew), Option.none_or]
      exact List.find?_cons_of_pos (decide_eq_true ⟨hb'.provider, hb'.providerDisputeId⟩)
    have hiso : isoCurrency d.currency := by
      obtain ⟨y, hy, hbinds⟩ := hr.binds
      rw [hb'.currency, ← hy.currency]
      exact hbinds.currency
    have habout : AboutDispute v d :=
      ⟨hb'.provider.trans hprov.symm, hb'.providerDisputeId.trans ha.providerDisputeId.symm,
        hb'.paymentId.trans (congrArg PaymentRef.id ha.payment).symm, hb'.attemptId.trans (congrArg AttemptRef.id ha.attempt).symm,
        hb'.amount.trans ha.amount.symm, (trim_iso hiso).trans (hb'.currency.trans ha.currency.symm)⟩
    have hopen : d.status = .opened → d.chargebackFactId = none := fun ho =>
      (hi.disputes d hmem).unfunded (by rw [ho]; nofun)
    have htaken : d.furtheredBy v.notice → ∀ c ∈ v.notice.chargeback, s.chargebackTaken d.provider c.txnId = false := by
      intro hfur c hc'
      have hnone : d.chargebackFactId = none := by
        rcases hfur with ⟨ho, -⟩ | ⟨-, hn, -⟩
        · exact hopen ho
        · exact hn
      have hfact : fact = none := Option.map_eq_none_iff.mp (hl.symm.trans hnone)
      unfold Db.chargebackTaken
      rw [hfs, hfact, Option.toList_none, List.append_nil, hb'.provider]
      exact hu.untaken c hc'
    obtain ⟨t, disposition, reason, hk, hshape, happ⟩ :=
      onKnown_succeeds x.attempt.provider hmem habout hopen hff ha.parses htaken hu.text
    refine ⟨t, disposition, reason, some d.id, ?_, hshape, ?_, fun hne => happ ?_⟩
    · unfold dispatch
      rw [hfind]
      exact hk
    · obtain ⟨y, hy, hlater⟩ := (onKnown_change hopen hmem ⟨habout.provider, habout.providerDisputeId⟩ hk).later hi hmem
      exact ⟨y, hy, congrArg some hlater.same.id.symm, hlater.same.provider.trans hb'.provider,
        hlater.same.providerDisputeId.trans hb'.providerDisputeId⟩
    · exact furthered_of_absorb hst (by rw [← hc, hl]; cases fact <;> simp) hne

end

theorem observation_fits
    (h : Observable x s p v t disposition reason id) (ha : x.About v) (hbinds : Binds base.books d)
    (hd : d.providerDisputeId = x.providerDisputeId) (hcur : d.currency = x.currency) (hamt : d.amount = x.amount)
    (hrow : ∃ e ∈ t.notifications, e.id = v.webhookEventId ∧ e.provider = x.attempt.provider)
    (hnone : ∀ o ∈ t.observations, o.webhookEventId ≠ v.webhookEventId)
    (htext : ∀ c ∈ v.notice.chargeback, hasNoNul c.txnId ∧ hasNoNul c.currency) :
    Admitted (observationChecks t (v.observation x.attempt.provider disposition reason id)) := by
  obtain ⟨y, hy, rfl, hyp, hyd⟩ := h.dispute
  have hnul : hasNoNul d.currency := by
    have hc := hbinds.currency
    simp only [isoCurrency, decide_eq_true_eq, List.all_eq_true] at hc
    simp only [hasNoNul, List.all_eq_true, decide_eq_true_eq]
    intro c hmem he
    have hle := (hc.2 c hmem).1
    rw [show c = Char.ofNat 0 from Char.toNat_inj.mp he] at hle
    exact absurd hle (by decide)
  have hname : v.notice.providerDisputeId = d.providerDisputeId := ha.providerDisputeId.trans hd.symm
  have htextName : hasNoNul v.notice.providerDisputeId := hname ▸ hbinds.text
  have hlength : 1 ≤ v.notice.providerDisputeId.length ∧ v.notice.providerDisputeId.length ≤ 256 := hname ▸ hbinds.length
  have hnulCurrency : hasNoNul v.notice.currency := (ha.currency.trans hcur.symm) ▸ hnul
  have hamount : 0 < v.notice.amount ∧ v.notice.amount ≤ maxSafeInteger := (ha.amount.trans hamt.symm) ▸ hbinds.amount
  have hchargeback : (v.notice.chargeback.map chargebackShape).getD true := by
    cases hc : v.notice.chargeback with
    | none => rfl
    | some c => exact parses_shape ha.parses hc (htext c hc)
  simp only [Admitted, observationChecks, List.forall_mem_cons, Bool.not_eq_true', List.any_eq_false, decide_eq_true_eq,
    List.not_mem_nil, false_implies, implies_true, and_true, List.any_eq_true]
  refine ⟨hrow, ?_, hnone, ⟨?_, ?_⟩, ?_, ?_, parses_currency ha.parses, hchargeback, h.shape⟩
  · exact List.any_eq_true.mpr ⟨y, hy, decide_eq_true ⟨rfl, hyp, hyd.trans ha.providerDisputeId.symm⟩⟩
  · exact htextName
  · exact hnulCurrency
  · exact hlength
  · exact hamount

/-! ## Deliveries -/

structure Arrival where
  event : Uuid
  lastChance : Bool
  freshDisputeId : Uuid
  freshFactId : Uuid

def deliver (s : Db) (y : Arrival) : Db :=
  match s.findNotification y.event with
  | none => s
  | some e =>
    match e.notice with
    | none => s
    | some n =>
      match ingest s e.id e.provider e.reference n y.lastChance y.freshDisputeId y.freshFactId with
      | .ok (t, _) => t
      | .error _ => s

def FreshIds (s : Db) (y : Arrival) : Prop :=
  (∀ d ∈ s.disputes, d.id ≠ y.freshDisputeId) ∧ ∀ f ∈ s.chargebacks, f.id ≠ y.freshFactId

structure Follows (x : Subject) (base : Db) (notice : Uuid → DisputeNotice) (p : Progress) (s : Db) : Prop where
  inv : DisputeInv s
  books : s.books = base.books
  notifications : s.notifications = base.notifications
  stands : Stands x base p s
  observed : ∀ o ∈ s.observations, o ∈ base.observations ∨ x.take base p (notice o.webhookEventId) = p

theorem Stands.congr (h : Stands x base p s) (hd : t.disputes = s.disputes) (hf : t.chargebacks = s.chargebacks) :
    Stands x base p t := by
  cases h with
  | unknown s hd' hf' => exact .unknown t (hd.trans hd') (hf.trans hf')
  | known p s capture basis d fact hr hb hs hc hl hof hds hfs =>
    exact .known p t capture basis d fact hr hb hs hc hl hof (hd.trans hds) (hf.trans hfs)

theorem take_neg (h : ¬ ((∃ capture basis, x.Recordable base.books capture basis) ∧ x.Usable base n)) :
    x.take base p n = p := if_neg h

structure Subject.Due (x : Subject) (base : Db) (notice : Uuid → DisputeNotice) (y : Arrival) : Prop where
  told : x.Told base y.event (notice y.event)
  unobserved : ∀ o ∈ base.observations, o.webhookEventId ≠ y.event

section
variable {notice : Uuid → DisputeNotice} {y : Arrival}

theorem Follows.observed_step (h : Follows x base notice p s) (hnew : x.New base) (ha : x.About v)
    (hn : v.notice = notice v.webhookEventId)
    (hnone : ∀ o ∈ s.observations, o.webhookEventId ≠ v.webhookEventId)
    (hnote : disposition ≠ .applied → x.take base p v.notice = p) (hc : Change s v (.observed disposition reason id) t) :
    Follows x base notice (x.take base p v.notice)
      { t with observations := t.observations ++ [v.observation provider disposition reason id] } := by
  have hobs : t.observations = s.observations := hc.observations
  have hnote' : (∀ r i, Outcome.observed disposition reason id ≠ .observed .applied r i) → x.take base p v.notice = p :=
    fun hne => hnote fun hd => hne reason id (by rw [hd])
  refine ⟨(hc.inv h.inv).observed fun o ho => hnone o (hobs ▸ ho), hc.rows.1.trans h.books, hc.rows.2.trans h.notifications,
    (Change.stands h.stands h.inv h.books hnew ha hnote' hc).congr rfl rfl, fun o ho => ?_⟩
  rcases mem_append_row ho with ho | rfl
  · exact (h.observed o (hobs ▸ ho)).imp_right take_keeps
  · refine .inr ?_
    show x.take base (x.take base p v.notice) (notice v.webhookEventId) = _
    rw [← hn]
    exact take_take

theorem observe_ok (h : observe s provider v = .ok (t, r)) :
    (∃ u, dispatch s provider v = .ok (u, .held) ∧ t = u) ∨
      ∃ u disposition reason id, dispatch s provider v = .ok (u, .observed disposition reason id) ∧
        t = { u with observations := u.observations ++ [v.observation provider disposition reason id] } := by
  obtain ⟨⟨u, o⟩, hu, h⟩ := bind_eq_ok.mp h
  cases o with
  | held =>
    cases h
    exact .inl ⟨_, hu, rfl⟩
  | observed disposition reason id =>
    obtain ⟨w, hw, h⟩ := bind_eq_ok.mp h
    obtain ⟨-, rfl⟩ := enforce_bind_ok hw
    cases h
    exact .inr ⟨u, disposition, reason, id, hu, rfl⟩

theorem observe_succeeds
    (hd : dispatch s provider v = .ok (t, .observed disposition reason id))
    (hc : Admitted (observationChecks t (v.observation provider disposition reason id))) :
    observe s provider v = .ok ({ t with observations := t.observations ++ [v.observation provider disposition reason id] },
      answer disposition reason id v.attempt.id) :=
  bind_eq_ok.mpr ⟨_, hd, bind_eq_ok.mpr ⟨_, bind_eq_ok.mpr ⟨(), enforce_ok.mpr hc, rfl⟩, rfl⟩⟩

theorem Follows.observe (h : Follows x base notice p s) (hnew : x.New base) (ha : x.About v)
    (hn : v.notice = notice v.webhookEventId) (hnone : ∀ o ∈ s.observations, o.webhookEventId ≠ v.webhookEventId)
    (hrow : ∃ e ∈ s.notifications, e.id = v.webhookEventId ∧ e.provider = x.attempt.provider)
    (hfd : ∀ d ∈ s.disputes, d.id ≠ v.freshDisputeId) (hff : ∀ f ∈ s.chargebacks, f.id ≠ v.freshFactId) :
    Follows x base notice (x.take base p v.notice) (match Disputes.observe s x.attempt.provider v with
      | .ok (t, _) => t
      | .error _ => s) ∧
    ((∃ capture basis, x.Recordable base.books capture basis) → x.Usable base v.notice →
      ∃ t r, Disputes.observe s x.attempt.provider v = .ok (t, r) ∧ ∃ o ∈ t.observations, o.webhookEventId = v.webhookEventId) := by
  have hprov : v.attempt.provider = x.attempt.provider := congrArg AttemptRef.provider ha.attempt
  -- a notice that counts is observed
  have hsucceeds : ∀ capture basis, x.Recordable base.books capture basis → x.Usable base v.notice →
      ∃ t disposition reason id, Observable x s p v t disposition reason id ∧
        Admitted (observationChecks t (v.observation x.attempt.provider disposition reason id)) := by
    intro capture basis hr hu
    obtain ⟨t, disposition, reason, id, ho⟩ := dispatch_succeeds h.stands h.inv h.books hnew ha hr hu hfd hff
    have hc := dispatch_change h.inv hprov ho.change
    obtain ⟨d, hd, hbinds⟩ := hr.binds
    refine ⟨t, disposition, reason, id, ho, observation_fits ho ha hbinds hd.providerDisputeId hd.currency hd.amount ?_ ?_ hu.text⟩
    · rw [hc.rows.2]; exact hrow
    · rw [hc.observations]; exact hnone
  refine ⟨?_, fun ⟨capture, basis, hr⟩ hu => ?_⟩
  · by_cases hcount : (∃ capture basis, x.Recordable base.books capture basis) ∧ x.Usable base v.notice
    · obtain ⟨⟨capture, basis, hr⟩, hu⟩ := hcount
      obtain ⟨t, disposition, reason, id, ho, hfits⟩ := hsucceeds capture basis hr hu
      rw [observe_succeeds ho.change hfits]
      refine h.observed_step hnew ha hn hnone (fun hne => ?_) (dispatch_change h.inv hprov ho.change)
      rw [take_pos hr hu]
      by_contra habs
      exact hne (ho.applied habs)
    · cases hobs : Disputes.observe s x.attempt.provider v with
      | error e => rw [take_neg hcount]; exact h
      | ok r =>
        obtain ⟨t, r⟩ := r
        rcases observe_ok hobs with ⟨u, hu, rfl⟩ | ⟨u, disposition, reason, id, hu, rfl⟩
        · cases dispatch_change h.inv hprov hu
          rw [take_neg hcount]
          exact h
        · exact h.observed_step hnew ha hn hnone (fun _ => take_neg hcount) (dispatch_change h.inv hprov hu)
  · obtain ⟨t, disposition, reason, id, ho, hfits⟩ := hsucceeds capture basis hr hu
    exact ⟨_, _, observe_succeeds ho.change hfits, _, List.mem_append_right _ (List.mem_singleton_self _), rfl⟩

theorem Follows.deliver (h : Follows x base notice p s) (hnew : x.New base) (hdue : x.Due base notice y) (hfresh : FreshIds s y) :
    Follows x base notice (x.take base p (notice y.event)) (deliver s y) ∧
      ((∃ capture basis, x.Recordable base.books capture basis) → x.Usable base (notice y.event) →
        ∃ o ∈ (Disputes.deliver s y).observations, o.webhookEventId = y.event) := by
  obtain ⟨⟨e, he, hep, hen, hea⟩, hpay, hparse, hdid, hamt, hcur⟩ := hdue.told
  have hmem : e ∈ s.notifications := h.notifications ▸ (findNotification_mem he).1
  have hid : e.id = y.event := (findNotification_mem he).2
  have hprov : x.attempt.provider = x.provider := by
    have hr := List.find?_some hea
    simp only [AttemptRef.referenced, decide_eq_true_eq] at hr
    exact hr.1
  have hfind : s.findNotification y.event = some e := by
    unfold Db.findNotification at he ⊢
    rw [h.notifications]
    exact he
  let v : Delivery := ⟨e.id, x.payment, x.attempt, notice y.event, y.lastChance, y.freshDisputeId, y.freshFactId⟩
  have ha : x.About v := ⟨rfl, rfl, hparse, hdid, hamt, hcur⟩
  unfold Disputes.deliver
  rw [hfind]
  dsimp only
  rw [hen]
  dsimp only
  unfold ingest
  rw [h.books, hep, hea]
  simp only [hpay]
  rw [← hprov]
  cases hseen : s.observations.find? (·.webhookEventId = e.id) with
  | some o =>
    have ho := List.mem_of_find?_eq_some hseen
    have hoid : o.webhookEventId = y.event := by
      have hsame := List.find?_some hseen
      simp only [decide_eq_true_eq] at hsame
      exact hsame.trans hid
    rcases h.observed o ho with hbase | hkept
    · exact absurd hoid (hdue.unobserved o hbase)
    · rw [hoid] at hkept
      rw [hkept]
      exact ⟨h, fun _ _ => ⟨o, ho, hoid⟩⟩
  | none =>
    have hnone : ∀ o ∈ s.observations, o.webhookEventId ≠ v.webhookEventId := by
      intro o ho he
      exact List.find?_eq_none.mp hseen o ho (decide_eq_true he)
    have hobs := h.observe hnew ha (congrArg notice hid.symm) hnone ⟨e, hmem, rfl, hep.trans hprov.symm⟩ hfresh.1 hfresh.2
    refine ⟨hobs.1, fun hr hu => ?_⟩
    obtain ⟨t, r, ht, o, ho, hoid⟩ := hobs.2 hr hu
    refine ⟨o, ?_, hoid.trans hid⟩
    dsimp only
    rw [ht]
    exact ho

theorem deliver_observations (h : DisputeInv s) {o : Observation} (ho : o ∈ s.observations) : o ∈ (Disputes.deliver s y).observations := by
  unfold Disputes.deliver
  split
  · exact ho
  split
  · exact ho
  split
  · rename_i e _ n _ t r ht
    cases ingest_ok (fun d hd hs => (h.disputes d hd).unfunded (by rw [hs]; nofun)) ht with
    | unchanged => exact ho
    | observed v disposition reason id u hv hp hobs hc =>
      refine List.mem_append_left _ ?_
      rw [hc.observations]
      exact ho
  · exact ho

theorem Follows.deliveries (hnew : x.New base) {ys : List Arrival} (hdue : ∀ y ∈ ys, x.Due base notice y) :
    ∀ {p s}, Follows x base notice p s → Along Disputes.deliver FreshIds s ys →
      Follows x base notice ((ys.map fun y => notice y.event).foldl (x.take base) p) (ys.foldl Disputes.deliver s) ∧
        (∀ o ∈ s.observations, o ∈ (ys.foldl Disputes.deliver s).observations) ∧
        ((∃ capture basis, x.Recordable base.books capture basis) → ∀ y ∈ ys, x.Usable base (notice y.event) →
          ∃ o ∈ (ys.foldl Disputes.deliver s).observations, o.webhookEventId = y.event) := by
  induction ys with
  | nil => exact fun h _ => ⟨h, fun o ho => ho, fun _ y hy => absurd hy List.not_mem_nil⟩
  | cons y ys ih =>
    intro p s h hfresh
    obtain ⟨hnext, hseen⟩ := Follows.deliver h hnew (hdue y List.mem_cons_self) hfresh.1
    obtain ⟨hend, hkept, hall⟩ := ih (fun z hz => hdue z (List.mem_cons_of_mem y hz)) hnext hfresh.2
    refine ⟨hend, fun o ho => hkept o (deliver_observations h.inv ho), fun hr z hz hu => ?_⟩
    rcases List.mem_cons.mp hz with rfl | hz
    · obtain ⟨o, ho, hoid⟩ := hseen hr hu
      exact ⟨o, hkept o ho, hoid⟩
    · exact hall hr z hz hu

end

end

/-! ## What is left of the order -/

def Dispute.terms (d : Dispute) : (String × String × Uuid × Uuid) × (Uuid × CaptureBasis × Int × String) × DisputeStatus :=
  ((d.provider, d.providerDisputeId, d.paymentId, d.attemptId), (d.captureFactId, d.captureBasis, d.amount, d.currency), d.status)

def ChargebackFact.terms (f : ChargebackFact) : (String × Uuid × Uuid) × Chargeback :=
  ((f.provider, f.paymentId, f.attemptId), f.figures)

def DisputeExposure.money (e : DisputeExposure) : (Nat × Int) × Int × Nat :=
  ((e.openDisputes, e.disputeExposure), e.chargedBack, e.lostWithoutChargeback)

def Db.exposureRow (s : Db) (d : Dispute) : (Uuid × DisputeStatus) × Bool × Int :=
  ((d.paymentId, d.status), decide (d.chargebackFactId = none), s.netExposure d)

section
variable {x : Subject} {base s t u : Db} {p : Progress}

theorem money_eq (hd : t.disputes.map t.exposureRow = u.disputes.map u.exposureRow)
    (hf : t.chargebacks.map (fun f => (f.paymentId, f.amount)) = u.chargebacks.map (fun f => (f.paymentId, f.amount))) (id : Uuid) :
    (disputeExposure t id).money = (disputeExposure u id).money := by
  have hlive : ∀ s : Db, (s.disputes.filter fun d => d.paymentId = id ∧ d.status = .opened).map s.exposureRow =
      (s.disputes.map s.exposureRow).filter fun r => r.1.1 = id ∧ r.1.2 = .opened := by
    intro s
    rw [List.filter_map]
    rfl
  have hlost : ∀ s : Db, (s.disputes.filter fun d => d.paymentId = id ∧ d.status = .lost ∧ d.chargebackFactId = none).map s.exposureRow =
      (s.disputes.map s.exposureRow).filter fun r => r.1.1 = id ∧ r.1.2 = .lost ∧ r.2.1 := by
    intro s
    rw [List.filter_map]
    refine congrArg (List.map s.exposureRow) (List.filter_congr fun d hd => ?_)
    exact decide_eq_decide.mpr (by simp [Db.exposureRow])
  have hcharged : ∀ s : Db, (s.chargebacks.filter (·.paymentId = id)).map (fun f => (f.paymentId, f.amount)) =
      (s.chargebacks.map fun f => (f.paymentId, f.amount)).filter fun r => r.1 = id := by
    intro s
    rw [List.filter_map]
    rfl
  have hcount : ∀ s : Db, (s.disputes.filter fun d => d.paymentId = id ∧ d.status = .opened).length =
      ((s.disputes.map s.exposureRow).filter fun r => r.1.1 = id ∧ r.1.2 = .opened).length := by
    intro s
    rw [← hlive, List.length_map]
  have hnet : ∀ s : Db, ((s.disputes.filter fun d => d.paymentId = id ∧ d.status = .opened).map s.netExposure).sum =
      (((s.disputes.map s.exposureRow).filter fun r => r.1.1 = id ∧ r.1.2 = .opened).map (·.2.2)).sum := by
    intro s
    rw [← hlive, List.map_map]
    rfl
  have hunfunded : ∀ s : Db, (s.disputes.filter fun d => d.paymentId = id ∧ d.status = .lost ∧ d.chargebackFactId = none).length =
      ((s.disputes.map s.exposureRow).filter fun r => r.1.1 = id ∧ r.1.2 = .lost ∧ r.2.1).length := by
    intro s
    rw [← hlost, List.length_map]
  have hsum : ∀ s : Db, ((s.chargebacks.filter (·.paymentId = id)).map (·.amount)).sum =
      (((s.chargebacks.map fun f => (f.paymentId, f.amount)).filter fun r => r.1 = id).map (·.2)).sum := by
    intro s
    rw [← hcharged, List.map_map]
    rfl
  unfold disputeExposure DisputeExposure.money
  dsimp only
  rw [hcount t, hnet t, hunfunded t, hsum t, hd, hf, ← hcount u, ← hnet u, ← hunfunded u, ← hsum u]

theorem Stands.terms (ht : Stands x base p t) (hu : Stands x base p u) :
    t.disputes.map (·.terms) = u.disputes.map (·.terms) ∧ t.chargebacks.map (·.terms) = u.chargebacks.map (·.terms) := by
  cases ht with
  | unknown t hd hf =>
    cases hu with
    | unknown u hd' hf' => rw [hd, hd', hf, hf']; exact ⟨rfl, rfl⟩
    | known p u capture basis d fact hr hb hs hc hl hof hds hfs => cases hs
  | known p t capture basis d fact hr hb hs hc hl hof hds hfs =>
    cases hu with
    | unknown u hd' hf' => cases hs
    | known p u capture' basis' d' fact' hr' hb' hs' hc' hl' hof' hds' hfs' =>
      have hsame := hr.attributed.symm.trans hr'.attributed
      injection hsame with hcap hbasis
      subst hcap hbasis
      have hterms : d.terms = d'.terms := by
        have hst : d.status = d'.status := Option.some.inj (hs.symm.trans hs')
        simp only [Dispute.terms, hb.provider, hb.providerDisputeId, hb.paymentId, hb.attemptId, hb.captureFactId, hb.captureBasis,
          hb.amount, hb.currency, hb'.provider, hb'.providerDisputeId, hb'.paymentId, hb'.attemptId, hb'.captureFactId,
          hb'.captureBasis, hb'.amount, hb'.currency, hst]
      have hfigures : fact.map (·.figures) = fact'.map (·.figures) := hc.trans hc'.symm
      have hfacts : fact.toList.map (·.terms) = fact'.toList.map (·.terms) := by
        cases fact with
        | none => cases fact' with
          | none => rfl
          | some f => cases hfigures
        | some f => cases fact' with
          | none => cases hfigures
          | some g =>
            obtain ⟨-, hfp, hfpay, hfa⟩ := hof f rfl
            obtain ⟨-, hgp, hgpay, hga⟩ := hof' g rfl
            have hfg : f.figures = g.figures := Option.some.inj hfigures
            simp only [Option.toList_some, List.map_cons, List.map_nil, ChargebackFact.terms, hfp, hfpay, hfa, hgp, hgpay, hga,
              hb.provider, hb'.provider, hb.paymentId, hb'.paymentId, hb.attemptId, hb'.attemptId, hfg]
      rw [hds, hds', hfs, hfs', List.map_append, List.map_append, List.map_append, List.map_append, hfacts]
      exact ⟨congrArg (base.disputes.map _ ++ [·]) hterms, rfl⟩

theorem Stands.rows (ht : Stands x base p t) (hi : DisputeInv t) (hbase : DisputeInv base) :
    t.disputes.map t.exposureRow = base.disputes.map base.exposureRow ++ p.status.toList.map (fun status =>
      ((x.payment.id, status), decide (p.chargeback = none), max 0 (x.amount - (p.chargeback.toList.map (·.amount)).sum))) ∧
    t.chargebacks.map (fun f => (f.paymentId, f.amount)) = base.chargebacks.map (fun f => (f.paymentId, f.amount)) ++
      p.chargeback.toList.map (fun c => (x.payment.id, c.amount)) := by
  cases ht with
  | unknown t hd hf =>
    have hnet : ∀ d, t.exposureRow d = base.exposureRow d := by
      intro d
      unfold Db.exposureRow Db.netExposure
      rw [hf]
    rw [hd, hf, List.map_congr_left fun d _ => hnet d]
    exact ⟨(List.append_nil _).symm, (List.append_nil _).symm⟩
  | known p t capture basis d fact hr hb hs hc hl hof hds hfs =>
    have hids := hi.ids
    rw [hds, List.map_append, List.nodup_append'] at hids
    have hne : ∀ y ∈ base.disputes, y.id ≠ d.id := fun y hy he =>
      hids.2.2 (List.mem_map_of_mem hy) (List.mem_map.mpr ⟨d, List.mem_singleton_self d, he.symm⟩)
    have hold : ∀ y ∈ base.disputes, t.exposureRow y = base.exposureRow y := by
      intro y hy
      have hnone : fact.toList.filter (·.disputeId = y.id) = [] := by
        rw [List.filter_eq_nil_iff]
        intro f hf
        simpa [(hof f (Option.mem_toList.mp hf)).1] using (hne y hy).symm
      unfold Db.exposureRow Db.netExposure
      rw [hfs, List.filter_append, hnone, List.append_nil]
    have hnet : t.netExposure d = max 0 (x.amount - (p.chargeback.toList.map (·.amount)).sum) := by
      have hnone : base.chargebacks.filter (·.disputeId = d.id) = [] := by
        rw [List.filter_eq_nil_iff]
        intro f hf he
        obtain ⟨y, hy, hid, -⟩ := (hbase.facts f hf).linked
        exact hne y hy (hid.trans (of_decide_eq_true he))
      have hall : fact.toList.filter (·.disputeId = d.id) = fact.toList :=
        List.filter_eq_self.mpr fun f hf => decide_eq_true (hof f (Option.mem_toList.mp hf)).1
      unfold Db.netExposure
      rw [hfs, List.filter_append, hnone, List.nil_append, hall, hb.amount, ← hc]
      cases fact <;> rfl
    have hrow : t.exposureRow d = ((x.payment.id, d.status), decide (p.chargeback = none),
        max 0 (x.amount - (p.chargeback.toList.map (·.amount)).sum)) := by
      unfold Db.exposureRow
      rw [hnet, hb.paymentId, hl, ← hc]
      cases fact <;> rfl
    rw [hds, hfs, List.map_append, List.map_append, List.map_congr_left hold, hs]
    refine ⟨congrArg (base.disputes.map _ ++ [·]) hrow, congrArg (base.chargebacks.map _ ++ ·) ?_⟩
    rw [← hc]
    cases fact with
    | none => rfl
    | some f =>
      obtain ⟨-, -, hpay, -⟩ := hof f rfl
      simp [ChargebackFact.figures, hpay, hb.paymentId]

/-! ## One observation for a notification -/

theorem observed_once (h : DisputeInv s) {o : Observation} (ho : o ∈ s.observations) :
    (s.observations.filter (·.webhookEventId = o.webhookEventId)).length = 1 := by
  have hcount := List.count_eq_one_of_mem h.observations (List.mem_map_of_mem ho)
  rw [List.count_eq_countP, List.countP_map, List.countP_eq_length_filter] at hcount
  exact hcount

theorem ingest_observed (h : DisputeInv s) {id fd ff : Uuid} {reference : String} {n : DisputeNotice} {last : Bool}
    (hi : ingest s id provider reference n last fd ff = .ok (t, r)) (hr : r.state = .processed ∨ r.state = .conflict) :
    (t.observations.filter (·.webhookEventId = id)).length = 1 := by
  have hinv : DisputeInv t :=
    (ingest_ok (fun d hd hs => (h.disputes d hd).unfunded (by rw [hs]; nofun)) hi).inv h
  suffices hseen : ∃ o ∈ t.observations, o.webhookEventId = id by
    obtain ⟨o, ho, rfl⟩ := hseen
    exact observed_once hinv ho
  unfold ingest at hi
  split at hi
  · cases hi
    rcases hr with hr | hr <;> cases hr
  split at hi
  · cases hi
  split at hi
  · rename_i o ho
    cases hi
    have hsame := List.find?_some ho
    simp only [decide_eq_true_eq] at hsame
    exact ⟨o, List.mem_of_find?_eq_some ho, hsame⟩
  · obtain ⟨⟨u, o⟩, hu, hi⟩ := bind_eq_ok.mp hi
    cases o with
    | held =>
      cases hi
      rcases hr with hr | hr <;> cases hr
    | observed disposition reason disputeId =>
      obtain ⟨w, hw, hi⟩ := bind_eq_ok.mp hi
      obtain ⟨-, rfl⟩ := enforce_bind_ok hw
      cases hi
      exact ⟨_, List.mem_append_right _ (List.mem_singleton_self _), rfl⟩

end

theorem chargeback_once {s : Db} (h : DisputeInv s) {d : Dispute} (hd : d ∈ s.disputes) :
    (s.chargebacks.filter (·.disputeId = d.id)).length ≤ 1 := by
  have hlinked : ∀ f ∈ s.chargebacks.filter (·.disputeId = d.id), some f.id = d.chargebackFactId := by
    intro f hf
    obtain ⟨hf, hid⟩ := List.mem_filter.mp hf
    obtain ⟨y, hy, hyid, hl, -⟩ := (h.facts f hf).linked
    rw [← eq_of_key h.ids hy hd (hyid.trans (of_decide_eq_true hid)), hl]
  have hnodup : (s.chargebacks.filter (·.disputeId = d.id)).Nodup := (h.factIds.of_map _).filter _
  match hl : s.chargebacks.filter (·.disputeId = d.id) with
  | [] => rw [hl]; exact Nat.zero_le 1
  | [f] => rw [hl]; exact Nat.le_refl 1
  | f :: g :: l =>
    rw [hl] at hlinked hnodup
    have hf := hlinked f List.mem_cons_self
    have hg := hlinked g (List.mem_cons_of_mem f List.mem_cons_self)
    have hmem : ∀ y ∈ f :: g :: l, y ∈ s.chargebacks := fun y hy => List.mem_of_mem_filter (hl ▸ hy)
    have hsame : f = g := eq_of_key h.factIds (hmem f List.mem_cons_self)
      (hmem g (List.mem_cons_of_mem f List.mem_cons_self)) (Option.some.inj (hf.trans hg.symm))
    rw [hsame] at hnodup
    exact absurd List.mem_cons_self (List.nodup_cons.mp hnodup).1

def lostNotice : DisputeNotice := { openedNotice with kind := .lost, chargeback := some ⟨"cb-1", 1000, "EUR"⟩ }

def bothStored : Sys :=
  run true (Sys.new settledBooks) [.receive ⟨1, "fake", "tx-10", some openedNotice⟩, .receive ⟨2, "fake", "tx-10", some lostNotice⟩]

def openedThenLost : List Arrival := [⟨1, false, 50, 60⟩, ⟨2, false, 51, 61⟩]

def lostThenOpened : List Arrival := [⟨2, false, 50, 60⟩, ⟨1, false, 51, 61⟩, ⟨2, false, 52, 62⟩]

end NawaraCore.Disputes
