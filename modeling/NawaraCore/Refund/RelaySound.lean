import NawaraCore.Refund.MirrorSound

/-!
# Soundness of the relays

The mirror of every relay is a status that Payment's record had, in any interleaving of
Billing's and Payment's steps.
-/

namespace NawaraCore.RefundRelays

open Refunds (RefundAttemptStatus canTransition)

structure RelayInv (s : State) : Prop where
  keys : (s.db.relays.map Relay.id).Nodup
  caseKeys : (s.db.cases.map RefundCase.id).Nodup
  live : UniqueOn (fun r => r.live = true) Relay.refundCaseId s.db.relays
  shaped : ∀ id, (s.payment id).Shaped
  known : ∀ id, s.payment id ≠ .absent → ∃ r ∈ s.db.relays, r.id = id
  answers : ∀ x ∈ s.answers, ∀ status refusal, x.2.next = some (status, refusal) → (s.payment x.1).Was status refusal
  applied : ∀ x ∈ s.applied, ∃ refusal, (s.payment x.1).Was x.2 refusal
  reads : ∀ x ∈ s.reads, ∀ status ∈ x.2, (x.1, status) ∈ s.applied
  mirrored : ∀ r ∈ s.db.relays, ∀ status ∈ r.attemptStatus, (r.id, status) ∈ s.applied
  rejected : ∀ r ∈ s.db.relays, r.attemptStatus = some .rejected →
    ∃ code ∈ refusalCodes, r.refusal = some code ∧ s.payment r.id = .refused code
  cancelled : ∀ c ∈ s.db.cases, c.status = .cancelled → ∀ r ∈ s.db.relays, r.refundCaseId = c.id → r.unconsumed

section
variable {s : State} {id : Uuid} {status : RelayStatus} {refusal : Option PaymentRefusal} {outcome : RefundRelayOutcome} {now : Int} {r : Relay}

theorem mem_appliedTo : status ∈ s.appliedTo id ↔ (id, status) ∈ s.applied := by
  unfold State.appliedTo
  constructor
  · intro h
    obtain ⟨x, hx, rfl⟩ := List.mem_map.mp h
    obtain ⟨hm, hid⟩ := List.mem_filter.mp hx
    obtain rfl := of_decide_eq_true hid
    exact hm
  · intro h
    exact List.mem_map.mpr ⟨_, List.mem_filter.mpr ⟨h, decide_eq_true rfl⟩, rfl⟩

theorem RelayInv.new : RelayInv .new where
  keys := .nil
  caseKeys := .nil
  live := .nil
  shaped _ _ _ h := by cases h
  known _ h := absurd rfl h
  answers _ hx := absurd hx List.not_mem_nil
  applied _ hx := absurd hx List.not_mem_nil
  reads _ hx := absurd hx List.not_mem_nil
  mirrored _ hx := absurd hx List.not_mem_nil
  rejected _ hx := absurd hx List.not_mem_nil
  cancelled _ hx := absurd hx List.not_mem_nil

theorem RelayInv.withPayment (h : RelayInv s) {payment : Uuid → PaymentRecord} (hs : ∀ id, (payment id).Shaped)
    (hk : ∀ id, payment id ≠ .absent → s.payment id ≠ .absent ∨ s.db.relays.any fun r => r.id = id)
    (hw : ∀ id status refusal, (s.payment id).Was status refusal → (payment id).Was status refusal) : RelayInv { s with payment } where
  keys := h.keys
  caseKeys := h.caseKeys
  live := h.live
  shaped := hs
  known id hne := by
    rcases hk id hne with hold | hany
    · exact h.known id hold
    · obtain ⟨r, hr, hid⟩ := List.any_eq_true.mp hany
      exact ⟨r, hr, of_decide_eq_true hid⟩
  answers x hx status refusal hn := hw _ _ _ (h.answers x hx status refusal hn)
  applied x hx := by
    obtain ⟨refusal, hp⟩ := h.applied x hx
    exact ⟨refusal, hw _ _ _ hp⟩
  reads := h.reads
  mirrored := h.mirrored
  rejected r hr hs := by
    obtain ⟨code, hc, hrc, hp⟩ := h.rejected r hr hs
    obtain ⟨_, hsome, hrec⟩ := hw r.id .rejected (some code) ⟨code, rfl, hp⟩
    cases hsome
    exact ⟨code, hc, hrc, hrec⟩
  cancelled := h.cancelled

theorem RelayInv.record (h : RelayInv s) (id : Uuid) {record : PaymentRecord} (hs : record.Shaped) : RelayInv (s.record id record) := by
  unfold State.record
  split
  · rename_i hfresh
    refine h.withPayment (fun i => ?_) (fun i hne => ?_) fun i status refusal hw => ?_
    · by_cases hi : i = id
      · subst hi
        simpa using hs
      · simpa [Function.update_of_ne hi] using h.shaped i
    · by_cases hi : i = id
      · subst hi
        exact .inr hfresh.2
      · exact .inl (by simpa [Function.update_of_ne hi] using hne)
    · by_cases hi : i = id
      · subst hi
        exact absurd hfresh.1 hw.known
      · simpa [Function.update_of_ne hi] using hw
  · exact h

theorem RelayInv.move (h : RelayInv s) (id : Uuid) (next : RefundAttemptStatus) (receiptId : Option Uuid) :
    RelayInv { s with payment := Function.update s.payment id ((s.payment id).move next receiptId) } := by
  refine h.withPayment (fun i => ?_) (fun i hne => .inl ?_) fun i status refusal hw => ?_
  · by_cases hi : i = id
    · subst hi
      simpa using (h.shaped i).move next receiptId
    · simpa [Function.update_of_ne hi] using h.shaped i
  · by_cases hi : i = id
    · subst hi
      rintro he
      simp [he, PaymentRecord.move] at hne
    · simpa [Function.update_of_ne hi] using hne
  · by_cases hi : i = id
    · subst hi
      simpa using hw.move next receiptId
    · simpa [Function.update_of_ne hi] using hw

/-! ## Cases -/

theorem case?_some {db : Db} {c : RefundCase} (h : db.case? id = some c) : c ∈ db.cases ∧ c.id = id :=
  ⟨List.mem_of_find?_eq_some h, by simpa using List.find?_some h⟩

theorem RelayInv.replaceCase (h : RelayInv s) {y : RefundCase} {completions : List RefundCaseCompletion}
    (hy : y.status = .cancelled → ∀ r ∈ s.db.relays, r.refundCaseId = y.id → r.unconsumed) :
    RelayInv { s with db := ⟨replaceRow RefundCase.id y s.db.cases, s.db.relays, completions⟩ } where
  keys := h.keys
  caseKeys := by
    rw [map_replaceRow fun _ _ he => he]
    exact h.caseKeys
  live := h.live
  shaped := h.shaped
  known := h.known
  answers := h.answers
  applied := h.applied
  reads := h.reads
  mirrored := h.mirrored
  rejected := h.rejected
  cancelled c hc hs := by
    rcases mem_replaceRow hc with rfl | ⟨hc, -⟩
    · exact hy hs
    · exact h.cancelled c hc hs

theorem RelayInv.openCase (h : RelayInv s) (id paymentId : Uuid) (amount : Nat) (currency : String) :
    RelayInv { s with db := s.db.openCase id paymentId amount currency } := by
  unfold Db.openCase
  split
  · exact h
  · rename_i hfresh
    refine { h with caseKeys := nodup_append_row h.caseKeys fun c hc he => hfresh ?_, cancelled := fun c hc hs => ?_ }
    · exact List.any_eq_true.mpr ⟨c, hc, decide_eq_true he⟩
    · rcases mem_append_row hc with hc | rfl
      · exact h.cancelled c hc hs
      · cases hs

theorem RelayInv.cancel (h : RelayInv s) (refundCaseId : Uuid) : RelayInv { s with db := s.db.cancel refundCaseId } := by
  unfold Db.cancel
  cases hc : s.db.case? refundCaseId with
  | none => exact h
  | some c =>
    dsimp only
    split
    · exact h
    · rename_i hn
      refine h.replaceCase fun _ r hr hrc => ?_
      by_contra hu
      refine hn (.inr (List.any_eq_true.mpr ⟨r, hr, ?_⟩))
      simpa [hu] using hrc.trans (case?_some hc).2

theorem complete_cases (db : Db) (z : PaymentRefundCompletion) :
    (db.complete z).1 = db ∨ ∃ c ∈ db.cases, c.id = z.refundCaseId ∧ c.status = .open ∧ ∃ y : RefundCase, y.id = z.refundCaseId ∧ y.status = .completed ∧
      ∃ completions, (db.complete z).1 = ⟨replaceRow RefundCase.id y db.cases, db.relays, completions⟩ := by
  unfold Db.complete
  cases hc : db.case? z.refundCaseId with
  | none => exact .inl rfl
  | some c =>
    have hid : c.id = z.refundCaseId := (case?_some hc).2
    dsimp only
    split
    · exact .inl rfl
    · split
      · exact .inl rfl
      · split
        · exact .inl rfl
        · split
          · exact .inl rfl
          · split
            · exact .inl rfl
            · rename_i hopen
              exact .inr ⟨c, (case?_some hc).1, hid, not_not.mp hopen, { c with
                status := .completed
                completedAt := some z.completedAt }, hid, rfl, _, rfl⟩

theorem RelayInv.complete (h : RelayInv s) (z : PaymentRefundCompletion) : RelayInv { s with db := (s.db.complete z).1 } := by
  rcases complete_cases s.db z with he | ⟨-, -, -, -, y, -, hy, completions, he⟩
  · rw [he]
    exact h
  · rw [he]
    exact h.replaceCase fun hc => by rw [hy] at hc; cases hc

/-! ## Relays -/

variable {r : Relay}

theorem relay?_some {db : Db} (h : db.relay? id = some r) : r ∈ db.relays ∧ r.id = id :=
  ⟨List.mem_of_find?_eq_some h, by simpa using List.find?_some h⟩

theorem relay_cases (db : Db) (id refundCaseId : Uuid) : db.relay id refundCaseId = db ∨
    ∃ c ∈ db.cases, c.id = refundCaseId ∧ c.status = .open ∧ (∀ r ∈ db.relays, r.refundCaseId = refundCaseId → r.live = false) ∧
      (∀ r ∈ db.relays, r.id ≠ id) ∧ db.relay id refundCaseId = { db with relays := db.relays ++ [⟨id, refundCaseId, c.paymentId, none, none, none⟩] } := by
  unfold Db.relay
  cases hc : db.case? refundCaseId with
  | none => exact .inl rfl
  | some c =>
    dsimp only
    split
    · exact .inl rfl
    · rename_i hn
      obtain ⟨hs, hn⟩ := not_or.mp hn
      obtain ⟨hl, hid⟩ := not_or.mp hn
      refine .inr ⟨c, (case?_some hc).1, (case?_some hc).2, not_not.mp hs, fun r hr hrc => ?_, fun r hr he => ?_, rfl⟩
      · by_contra hlive
        exact hl (List.any_eq_true.mpr ⟨r, hr, by simpa [hrc] using hlive⟩)
      · exact hid (List.any_eq_true.mpr ⟨r, hr, decide_eq_true he⟩)

theorem RelayInv.relay (h : RelayInv s) (id refundCaseId : Uuid) : RelayInv { s with db := s.db.relay id refundCaseId } := by
  rcases relay_cases s.db id refundCaseId with he | ⟨c, hcm, hcid, hopen, hlive, hfresh, he⟩
  · rw [he]
    exact h
  · rw [he]
    exact {
      h with
      keys := nodup_append_row h.keys hfresh
      live := h.live.append fun r hr hl _ hrc => by
        rw [hlive r hr hrc] at hl
        cases hl
      known := fun i hne => by
        obtain ⟨r, hr, hid⟩ := h.known i hne
        exact ⟨r, List.mem_append_left _ hr, hid⟩
      mirrored := fun r hr status hs => by
        rcases mem_append_row hr with hr | rfl
        · exact h.mirrored r hr status hs
        · cases hs
      rejected := fun r hr hs => by
        rcases mem_append_row hr with hr | rfl
        · exact h.rejected r hr hs
        · cases hs
      cancelled := fun c' hc' hs r hr hrc => by
        rcases mem_append_row hr with hr | rfl
        · exact h.cancelled c' hc' hs r hr hrc
        · obtain rfl := eq_of_key h.caseKeys hcm hc' (hcid.trans hrc)
          rw [hopen] at hs
          cases hs }

theorem RelayInv.not_otherLive (h : RelayInv s) (hr : r ∈ s.db.relays) (hl : r.live) : s.db.otherLive r = false := by
  by_contra hn
  obtain ⟨x, hx, hxr⟩ := List.any_eq_true.mp (by simpa using hn : s.db.otherLive r = true)
  obtain ⟨hcase, hne, hxl⟩ := of_decide_eq_true hxr
  exact hne (congrArg Relay.id (h.live x hx r hr hxl hl hcase))

/-! ## Answers -/

theorem RelayInv.relay? (h : RelayInv s) (hk : s.payment id ≠ .absent) : ∃ r, s.db.relay? id = some r := by
  obtain ⟨r, hr, rfl⟩ := h.known id hk
  exact ⟨r, find_key h.keys hr⟩

theorem RelayInv.was (h : RelayInv s) (hr : r ∈ s.db.relays) {old : RelayStatus} (ho : r.attemptStatus = some old) :
    ∃ refusal, (s.payment r.id).Was old refusal := h.applied _ (h.mirrored r hr old ho)

theorem RelayInv.tell (h : RelayInv s) (hw : (s.payment id).Was status refusal) : RelayInv { s with applied := s.applied ++ [(id, status)] } :=
  { h with
    applied := fun x hx => by
      rcases mem_append_row hx with hx | rfl
      · exact h.applied x hx
      · exact ⟨refusal, hw⟩
    reads := fun x hx st hs => List.mem_append_left _ (h.reads x hx st hs)
    mirrored := fun r hr st hs => List.mem_append_left _ (h.mirrored r hr st hs) }

theorem apply_none (hn : outcome.next = none) : s.apply id outcome now = s := by
  unfold State.apply State.told Db.apply
  rw [hn]

theorem apply_some (hn : outcome.next = some (status, refusal)) :
    s.apply id outcome now = { s with
      db := s.db.mirror id status refusal now
      applied := s.applied ++ [(id, status)] } := by
  unfold State.apply State.told Db.apply
  rw [hn]

theorem RelayInv.written (h : RelayInv s) (hr : r ∈ s.db.relays) (ht : (r.id, status) ∈ s.applied)
    (hw : (s.payment r.id).Was status refusal) (hs : ∀ old ∈ r.attemptStatus, old.allowed status) (hc : ∀ c ∈ refusal, c ∈ refusalCodes)
    (hl : (r.told status refusal now).live → s.db.otherLive r = false) :
    RelayInv { s with db := { s.db with relays := replaceRow Relay.id (r.told status refusal now) s.db.relays } } :=
  { h with
    keys := by
      rw [map_replaceRow fun _ _ he => he]
      exact h.keys
    live := h.live.replace fun x hx hne hxl hrl hcase => by
      have hother : s.db.otherLive r = true := List.any_eq_true.mpr ⟨x, hx, decide_eq_true ⟨hcase, hne, hxl⟩⟩
      rw [hl hrl] at hother
      cases hother
    known := fun i hne => by
      obtain ⟨x, hx, rfl⟩ := h.known i hne
      by_cases hxr : x.id = r.id
      · exact ⟨_, replaceRow_mem hr rfl, hxr.symm⟩
      · exact ⟨x, replaceRow_other hx hxr, rfl⟩
    mirrored := fun x hx st hst => by
      rcases mem_replaceRow hx with rfl | ⟨hx, -⟩
      · obtain rfl := Option.some.inj hst
        exact ht
      · exact h.mirrored x hx st hst
    rejected := fun x hx hst => by
      rcases mem_replaceRow hx with rfl | ⟨hx, -⟩
      · obtain rfl := Option.some.inj hst
        obtain ⟨code, rfl, hp⟩ := hw
        exact ⟨code, hc code rfl, rfl, hp⟩
      · exact h.rejected x hx hst
    cancelled := fun c hcm hcs x hx hxc => by
      rcases mem_replaceRow hx with rfl | ⟨hx, -⟩
      · -- a relay of a cancelled case has nowhere to go
        obtain ⟨old, ho, hu⟩ := (Option.any_eq_true _ _).mp (h.cancelled c hcm hcs r hr hxc)
        exact absurd (hs old ho) (by rw [unconsumedFinal_stays hu]; exact Bool.false_ne_true)
      · exact h.cancelled c hcm hcs x hx hxc }

theorem RelayInv.apply (h : RelayInv s) (ha : (id, outcome) ∈ s.answers) : RelayInv (s.apply id outcome now) := by
  cases hn : outcome.next with
  | none =>
    rw [apply_none hn]
    exact h
  | some next =>
    obtain ⟨status, refusal⟩ := next
    have hw : (s.payment id).Was status refusal := h.answers _ ha status refusal hn
    have ht := h.tell hw
    obtain ⟨r, hr⟩ := h.relay? hw.known
    obtain ⟨hrm, hrid⟩ := relay?_some hr
    rw [apply_some hn]
    have hm : Mirror s.db r status refusal now (s.db.mirror id status refusal now) := mirror_cases hr
    generalize s.db.mirror id status refusal now = db at hm
    cases hm with
    | written hs hmap hc hl => exact ht.written hrm (hrid ▸ List.mem_append_right _ List.mem_cons_self) (hrid ▸ hw) hs hc hl
    | _ => exact ht

theorem RelayInv.skip (h : RelayInv s) (ha : (id, outcome) ∈ s.answers) : RelayInv { s with applied := s.told id outcome } := by
  unfold State.told
  cases hn : outcome.next with
  | none => exact h
  | some next => exact h.tell (h.answers _ ha next.1 next.2 hn)

theorem RelayInv.step (h : RelayInv s) (a : Action) : RelayInv (step s a) := by
  cases a with
  | openCase id paymentId amount currency => exact h.openCase id paymentId amount currency
  | relay id refundCaseId => exact h.relay id refundCaseId
  | cancel refundCaseId => exact h.cancel refundCaseId
  | complete z => exact h.complete z
  | intend id => exact h.record id fun _ _ he => by cases he; rfl
  | refuse id code => exact h.record id nofun
  | move id status receiptId => exact h.move id status receiptId
  | answer id outcome =>
    unfold RefundRelays.step
    dsimp only
    split
    · rename_i ha
      exact {
        h with
        answers := fun x hx status refusal hn => by
          rcases List.mem_cons.mp hx with rfl | hx
          · exact .of_answers ha hn
          · exact h.answers x hx status refusal hn }
    · exact h
  | lease id =>
    unfold RefundRelays.step
    dsimp only
    cases hr : s.db.relay? id with
    | none => exact h
    | some r =>
      exact {
        h with
        reads := fun x hx status hs => by
          rcases List.mem_cons.mp hx with rfl | hx
          · exact (relay?_some hr).2 ▸ h.mirrored r (relay?_some hr).1 status hs
          · exact h.reads x hx status hs }
  | apply id outcome now =>
    unfold RefundRelays.step
    dsimp only
    split
    · rename_i ha
      exact h.apply ha
    · exact h
  | reconcile id seen outcome now =>
    unfold RefundRelays.step
    dsimp only
    split
    · rename_i ha
      split
      · exact h.skip ha.1
      · exact h.apply ha.1
    · exact h

theorem RelayInv.run (h : RelayInv s) (actions : List Action) : RelayInv (actions.foldl RefundRelays.step s) := by
  induction actions generalizing s with
  | nil => exact h
  | cons a actions ih => exact ih (h.step a)

/-! ## Forward -/

theorem Relay.Moves.refl (r : Relay) : r.Moves r := .inl rfl

theorem RelayInv.mirror_moves (h : RelayInv s) {x : Relay} (hx : x ∈ s.db.relays) :
    ∃ x' ∈ (s.db.mirror id status refusal now).relays, x.Moves x' := by
  cases hr : s.db.relay? id with
  | none =>
    unfold Db.mirror
    rw [hr]
    exact ⟨x, hx, .refl x⟩
  | some r =>
    have hm : Mirror s.db r status refusal now (s.db.mirror id status refusal now) := mirror_cases hr
    generalize s.db.mirror id status refusal now = db at hm
    cases hm with
    | written hs hmap hc hl =>
      by_cases hxr : x.id = r.id
      · obtain rfl := eq_of_key h.keys hx (relay?_some hr).1 hxr
        exact ⟨_, replaceRow_mem hx rfl, .inr ⟨status, refusal, now, hs, hmap, rfl⟩⟩
      · exact ⟨x, replaceRow_other hx hxr, .refl x⟩
    | _ => exact ⟨x, hx, .refl x⟩

theorem RelayInv.apply_moves (h : RelayInv s) {x : Relay} (hx : x ∈ s.db.relays) : ∃ x' ∈ (s.apply id outcome now).db.relays, x.Moves x' := by
  cases hn : outcome.next with
  | none =>
    rw [apply_none hn]
    exact ⟨x, hx, .refl x⟩
  | some next =>
    rw [apply_some hn]
    exact h.mirror_moves hx

theorem openCase_relays (db : Db) (id paymentId : Uuid) (amount : Nat) (currency : String) :
    (db.openCase id paymentId amount currency).relays = db.relays := by
  unfold Db.openCase
  split <;> rfl

theorem cancel_relays (db : Db) (refundCaseId : Uuid) : (db.cancel refundCaseId).relays = db.relays := by
  unfold Db.cancel
  cases db.case? refundCaseId with
  | none => rfl
  | some c =>
    dsimp only
    split <;> rfl

theorem complete_relays (db : Db) (z : PaymentRefundCompletion) : (db.complete z).1.relays = db.relays := by
  rcases complete_cases db z with he | ⟨-, -, -, -, y, -, -, completions, he⟩ <;> rw [he]

theorem step_cases (s : State) (a : Action) :
    ((step s a).db.relays = s.db.relays ∧ (step s a).applied = s.applied ∧ ∀ t : State, t.Mirrored a) ∨
      (∃ id refundCaseId, a = .relay id refundCaseId) ∨
      (∃ id outcome now, a = .apply id outcome now) ∨ ∃ id seen outcome now, a = .reconcile id seen outcome now := by
  cases a with
  | openCase id paymentId amount currency => exact .inl ⟨openCase_relays _ _ _ _ _, rfl, fun _ => trivial⟩
  | relay id refundCaseId => exact .inr (.inl ⟨id, refundCaseId, rfl⟩)
  | cancel refundCaseId => exact .inl ⟨cancel_relays _ _, rfl, fun _ => trivial⟩
  | complete z => exact .inl ⟨complete_relays _ _, rfl, fun _ => trivial⟩
  | intend id | refuse id code =>
    refine .inl ?_
    unfold step State.record
    dsimp only
    split <;> exact ⟨rfl, rfl, fun _ => trivial⟩
  | move id status receiptId => exact .inl ⟨rfl, rfl, fun _ => trivial⟩
  | answer id outcome =>
    refine .inl ?_
    unfold step
    dsimp only
    split <;> exact ⟨rfl, rfl, fun _ => trivial⟩
  | lease id =>
    refine .inl ?_
    unfold step
    dsimp only
    cases s.db.relay? id <;> exact ⟨rfl, rfl, fun _ => trivial⟩
  | apply id outcome now => exact .inr (.inr (.inl ⟨id, outcome, now, rfl⟩))
  | reconcile id seen outcome now => exact .inr (.inr (.inr ⟨id, seen, outcome, now, rfl⟩))

theorem RelayInv.forward (h : RelayInv s) (a : Action) (hr : r ∈ s.db.relays) : ∃ r' ∈ (RefundRelays.step s a).db.relays, r.Moves r' := by
  rcases step_cases s a with ⟨he, -, -⟩ | ⟨id, refundCaseId, rfl⟩ | ⟨id, outcome, now, rfl⟩ | ⟨id, seen, outcome, now, rfl⟩
  · exact ⟨r, he ▸ hr, .refl r⟩
  · unfold RefundRelays.step
    dsimp only
    rcases relay_cases s.db id refundCaseId with he | ⟨c, -, -, -, -, -, he⟩
    · rw [he]
      exact ⟨r, hr, .refl r⟩
    · rw [he]
      exact ⟨r, List.mem_append_left _ hr, .refl r⟩
  · unfold RefundRelays.step
    dsimp only
    split
    · exact h.apply_moves hr
    · exact ⟨r, hr, .refl r⟩
  · unfold RefundRelays.step
    dsimp only
    split
    · split
      · exact ⟨r, hr, .refl r⟩
      · exact h.apply_moves hr
    · exact ⟨r, hr, .refl r⟩

end

end NawaraCore.RefundRelays
