import NawaraCore.Lib.Capped
import NawaraCore.Lib.Rows
import NawaraCore.Refund.RefundSystem

/-!
# Soundness of the refund runs

What one transaction can do to the refund tables.
-/

namespace NawaraCore.Refunds

open Payments (Uuid PaymentError Admitted enforce enforce_ok enforce_bind_ok trim maxSafeInteger)

variable {id : Uuid} {a : RefundAttempt}

theorem lockAttempt_ok {db : Db} (h : lockAttempt db id = .ok a) :
    a ∈ db.attempts ∧ a.id = id := by
  unfold lockAttempt at h
  split at h
  · cases h
  · rename_i b hb
    cases h
    exact ⟨List.mem_of_find?_eq_some hb, by simpa using List.find?_some hb⟩

variable {f : RefundFact} {inserted : Bool}

theorem insertFact_ok {db t : Db} (h : db.insertFact f = .ok (t, inserted)) :
    Admitted (factChecks db f) ∧
      if inserted then t = { db with facts := db.facts ++ [f] } ∧
        ∀ g ∈ db.facts, ¬ (g.provider = f.provider ∧ g.providerTxnId = f.providerTxnId)
      else t = db ∧ ∃ g ∈ db.facts, g.provider = f.provider ∧ g.providerTxnId = f.providerTxnId := by
  obtain ⟨u, hu, h⟩ := bind_eq_ok.mp h
  refine ⟨enforce_ok.mp hu, ?_⟩
  split at h
  · rename_i hex
    cases h
    simpa using hex
  · rename_i hnew
    cases h
    simpa using hnew

/-! ## What a transaction does -/

structure SameMoney (a b : RefundAttempt) : Prop where
  id : b.id = a.id
  paymentId : b.paymentId = a.paymentId
  refundCaseId : b.refundCaseId = a.refundCaseId
  amount : b.amount = a.amount
  currency : b.currency = a.currency
  captureFactId : b.captureFactId = a.captureFactId
  captureSpecific : b.captureSpecific = a.captureSpecific
  provider : b.provider = a.provider

/-- An eligible fact: uncontested, in its authorization's currency, and the authorization's own or associated with it. -/
structure Eligible (db : Db) (f : RefundFact) (z : RefundAuthorization) : Prop where
  fact : db.facts.find? (·.id = f.id) = some f
  target : (db.target f).map (·.refundAttemptId) = some z.refundAttemptId
  authorization : db.authorizations.find? (·.refundAttemptId = z.refundAttemptId) = some z
  fresh : ∀ x ∈ db.allocations, x.factId ≠ f.id
  unblocked : ∀ b ∈ db.blocks, b.factId ≠ f.id
  uncontested : db.contested f.id = false
  currency : f.currency = trim z.currency

def Db.allocated (db : Db) (f : RefundFact) (z : RefundAuthorization) (now : Int) : Db :=
  let intended := db.intended z f.amount
  let db := { db with allocations := db.allocations ++ [z.allocation f intended] }
  if intended ≤ 0 then db else (db.replaceAuthorization (z.advance intended now)).complete (z.advance intended now)

def RefundFact.BoundIn (f : RefundFact) (s : Db) : Prop :=
  ∀ b, f.binding = some b → ∃ a ∈ s.attempts, a.id = b.refundAttemptId ∧ a.paymentId = b.paymentId

inductive DbStep (cs : Captures) (s : Db) : Option Uuid → Db → Prop
  | unchanged : DbStep cs s none s
  | requested (a : RefundAttempt) (hc : Admitted (attemptInsertChecks cs s a)) :
    DbStep cs s none { s with attempts := s.attempts ++ [a] }
  | refused (ids : List Uuid) : DbStep cs s none { s with refusals := ids }
  | updated (a b : RefundAttempt) (ha : a ∈ s.attempts) (hm : SameMoney a b)
    (hc : Admitted (attemptUpdateChecks s a b)) : DbStep cs s none (s.replaceAttempt b)
  | authorized (a b : RefundAttempt) (z : RefundAuthorization) (ha : a ∈ s.attempts) (hm : SameMoney a b)
    (hc : Admitted (attemptUpdateChecks s a b)) (hz : Admitted (authorizationInsertChecks (s.replaceAttempt b) z)) :
    DbStep cs s none { s.replaceAttempt b with authorizations := s.authorizations ++ [z] }
  | observed (f : RefundFact) (hc : Admitted (factChecks s f)) (hb : f.BoundIn s)
    (hn : ∀ g ∈ s.facts, ¬ (g.provider = f.provider ∧ g.providerTxnId = f.providerTxnId)) :
    DbStep cs s none { s with facts := s.facts ++ [f] }
  | contradicted (c : RefundFactConflict) : DbStep cs s none (s.insertConflict c)
  | associated (as : List FactAssociation) : DbStep cs s none { s with associations := as }
  | blocked (b : AllocationBlock) : DbStep cs s none { s with blocks := s.blocks ++ [b] }
  | allocated (f : RefundFact) (z : RefundAuthorization) (now : Int) (he : Eligible s f z)
    (hc : Admitted (allocationChecks s (z.allocation f (s.intended z f.amount))))
    (hu : 0 < s.intended z f.amount → Admitted (authorizationUpdateChecks s z (z.advance (s.intended z f.amount) now))) :
    DbStep cs s (some f.id) (s.allocated f z now)

section
variable {cs : Captures} {s t : Db} {b : RefundAttempt}

theorem updateAttempt_ok (h : s.updateAttempt a b = .ok t) :
    Admitted (attemptUpdateChecks s a b) ∧ s.replaceAttempt b = t := enforce_bind_ok h

theorem updateAttempt_step (h : s.updateAttempt a b = .ok t) (ha : a ∈ s.attempts)
    (hm : SameMoney a b) : DbStep cs s none t := by
  obtain ⟨hc, rfl⟩ := updateAttempt_ok h
  exact .updated a b ha hm hc

theorem commitAuthorized_step {receiptId authorizationId : Uuid}
    (h : commitAuthorized s id receiptId authorizationId = .ok t) : DbStep cs s none t := by
  obtain ⟨a, ha, h⟩ := bind_eq_ok.mp h
  split at h
  · obtain ⟨u, hu, h⟩ := bind_eq_ok.mp h
    obtain ⟨hc, rfl⟩ := updateAttempt_ok hu
    obtain ⟨hz, rfl⟩ := enforce_bind_ok h
    exact .authorized a _ _ (lockAttempt_ok ha).1 ⟨rfl, rfl, rfl, rfl, rfl, rfl, rfl, rfl⟩ hc hz
  · cases h; exact .unchanged

theorem commitUnauthorized_step {expired : Bool} (h : commitUnauthorized s id expired = .ok t) :
    DbStep cs s none t := by
  obtain ⟨a, ha, h⟩ := bind_eq_ok.mp h
  split at h
  · exact updateAttempt_step h (lockAttempt_ok ha).1 ⟨rfl, rfl, rfl, rfl, rfl, rfl, rfl, rfl⟩
  · cases h; exact .unchanged

theorem startDispatch_step (h : startDispatch s id = .ok t) : DbStep cs s none t := by
  obtain ⟨a, ha, h⟩ := bind_eq_ok.mp h
  split at h
  · exact updateAttempt_step h (lockAttempt_ok ha).1 ⟨rfl, rfl, rfl, rfl, rfl, rfl, rfl, rfl⟩
  · cases h; exact .unchanged

theorem finishDispatch_step {result : RefundDispatchResult} (h : finishDispatch s id result = .ok t) :
    DbStep cs s none t := by
  obtain ⟨a, ha, h⟩ := bind_eq_ok.mp h
  have hmem := (lockAttempt_ok ha).1
  split at h
  · cases h; exact .unchanged
  · cases result with
    | accepted providerRefundId => exact updateAttempt_step h hmem ⟨rfl, rfl, rfl, rfl, rfl, rfl, rfl, rfl⟩
    | rejected code => exact updateAttempt_step h hmem ⟨rfl, rfl, rfl, rfl, rfl, rfl, rfl, rfl⟩
    | ambiguous =>
      dsimp only at h
      split at h
      · exact updateAttempt_step h hmem ⟨rfl, rfl, rfl, rfl, rfl, rfl, rfl, rfl⟩
      · cases h; exact .unchanged

variable {fact : Option RecordedFact}

theorem applyStatus_step {status : RefundStatusResult}
    (h : applyStatus s id status fact = .ok t) : DbStep cs s none t := by
  obtain ⟨a, ha, h⟩ := bind_eq_ok.mp h
  have hmem := (lockAttempt_ok ha).1
  split at h
  · unfold applySucceeded at h
    dsimp only at h
    split at h
    · exact updateAttempt_step h hmem ⟨rfl, rfl, rfl, rfl, rfl, rfl, rfl, rfl⟩
    · split at h
      · exact updateAttempt_step h hmem ⟨rfl, rfl, rfl, rfl, rfl, rfl, rfl, rfl⟩
      · cases h; exact .unchanged
  · split at h
    · exact updateAttempt_step h hmem ⟨rfl, rfl, rfl, rfl, rfl, rfl, rfl, rfl⟩
    · cases h; exact .unchanged
  · cases h; exact .unchanged

theorem insertFact_step (h : s.insertFact f = .ok (t, inserted))
    (hb : f.BoundIn s) : DbStep cs s none t := by
  obtain ⟨hc, ht⟩ := insertFact_ok h
  cases inserted with
  | true => obtain ⟨rfl, hn⟩ := ht; exact .observed f hc hb hn
  | false => obtain ⟨rfl, -⟩ := ht; exact .unchanged

theorem recordRefundFact_step {fresh : Uuid} {amount : Int} {currency refundId : String} {event : Option Uuid}
    (h : recordRefundFact s id amount currency refundId event fresh = .ok (t, fact)) :
    DbStep cs s none t := by
  obtain ⟨a, ha, h⟩ := bind_eq_ok.mp h
  split at h
  · cases h; exact .unchanged
  obtain ⟨⟨u, inserted⟩, hins, hrest⟩ := bind_eq_ok.mp h
  have hstep : DbStep cs s none u := insertFact_step hins fun b hb => by
    obtain rfl := Option.some.inj hb
    exact ⟨a, (lockAttempt_ok ha).1, rfl, rfl⟩
  have hu := (insertFact_ok hins).2
  clear h hins
  cases inserted with
  | true => cases hrest; exact hstep
  | false =>
    obtain ⟨rfl, -⟩ := hu
    simp only [Bool.false_eq_true, if_false] at hrest
    split at hrest
    · cases hrest; exact .unchanged
    · cases hrest
      split
      · exact .unchanged
      · exact .contradicted _

variable {o : AllocationOutcome}

theorem allocateTo_step {z : RefundAuthorization} {now : Int}
    (he : Eligible s f z) (h : allocateTo s f z now = .ok (t, o)) : DbStep cs s (some f.id) t ∧ t = s.allocated f z now := by
  obtain ⟨u, hu, h⟩ := bind_eq_ok.mp h
  obtain ⟨hc, rfl⟩ := enforce_bind_ok hu
  by_cases hi : s.intended z f.amount ≤ 0
  · rw [if_pos hi] at h
    obtain ⟨-, -, h⟩ := bind_eq_ok.mp h
    cases h
    have ht : s.allocated f z now = { s with allocations := s.allocations ++ [z.allocation f (s.intended z f.amount)] } :=
      if_pos hi
    exact ⟨ht ▸ .allocated f z now he hc fun hp => absurd hp (not_lt.mpr hi), ht.symm⟩
  · rw [if_neg hi] at h
    obtain ⟨v, hv, h⟩ := bind_eq_ok.mp h
    obtain ⟨hu, rfl⟩ := enforce_bind_ok hv
    obtain ⟨-, -, h⟩ := bind_eq_ok.mp h
    cases h
    have ht : s.allocated f z now = _ := if_neg hi
    exact ⟨ht ▸ .allocated f z now he hc fun _ => hu, ht.symm⟩

theorem allocate_cases {factId : Uuid} {now : Int} (h : allocate s factId now = .ok (t, o)) :
    (t = s ∧ ∀ i e c, o ≠ .allocated i e c) ∨ (∃ b, t = { s with blocks := s.blocks ++ [b] } ∧ ∀ i e c, o ≠ .allocated i e c) ∨
      ∃ f z, f.id = factId ∧ Eligible s f z ∧ allocateTo s f z now = .ok (t, o) := by
  have hblock : ∀ {factId : Uuid} {reason : BlockReason}, blockFact s factId reason = .ok (t, o) →
      ∃ b, t = { s with blocks := s.blocks ++ [b] } ∧ ∀ i e c, o ≠ .allocated i e c := by
    intro factId reason h
    obtain ⟨u, hu, h⟩ := bind_eq_ok.mp h
    obtain ⟨-, rfl⟩ := enforce_bind_ok hu
    cases h
    exact ⟨_, rfl, nofun⟩
  unfold allocate at h
  split at h
  · cases h
  rename_i f hf
  have hid : f.id = factId := by simpa using List.find?_some hf
  split at h
  · cases h
  rename_i b hb
  split at h
  · cases h; exact .inl ⟨rfl, nofun⟩
  rename_i hfresh
  split at h
  · cases h; exact .inl ⟨rfl, nofun⟩
  rename_i hunblocked
  split at h
  · exact .inr (.inl (hblock h))
  rename_i z hz
  split at h
  · exact .inr (.inl (hblock h))
  rename_i hcon
  split at h
  · exact .inr (.inl (hblock h))
  rename_i hcur
  have hza : z.refundAttemptId = b.refundAttemptId := by simpa using List.find?_some hz
  refine .inr (.inr ⟨f, z, hid, ⟨?_, ?_, ?_, ?_, ?_, by simpa using hcon, by simpa using hcur⟩, h⟩)
  · rw [hid]; exact hf
  · rw [hb, Option.map_some, hza]
  · rw [hza]; exact hz
  · simpa using hfresh
  · simpa using hunblocked

theorem step_dbStep (cs : Captures) (s : Sys) (a : Action) :
    ∃ l, DbStep cs s.db l (step cs s a).db ∧ ∀ id, l = some id → ∃ now, a = .allocate id now := by
  have hcommit : ∀ {s : Sys} {r : Except PaymentError Db}, (∀ t, r = .ok t → DbStep cs s.db none t) →
      ∃ l, DbStep cs s.db l (s.commit r).db ∧ ∀ id, l = some id → ∃ now, a = .allocate id now := by
    intro s r h
    cases r with
    | error e => exact ⟨none, .unchanged, nofun⟩
    | ok t => exact ⟨none, h t rfl, nofun⟩
  have hstay : ∃ l, DbStep cs s.db l s.db ∧ ∀ id, l = some id → ∃ now, a = .allocate id now :=
    ⟨none, .unchanged, nofun⟩
  cases a with
  | request paymentId input =>
    refine hcommit fun t h => ?_
    obtain ⟨hc, rfl⟩ := enforce_bind_ok h
    exact .requested _ hc
  | refuse id =>
    refine hcommit fun t h => ?_
    obtain ⟨-, rfl⟩ := enforce_bind_ok h
    exact .refused _
  | commitAuthorized id receiptId authorizationId => exact hcommit fun t h => commitAuthorized_step h
  | commitUnauthorized id expired => exact hcommit fun t h => commitUnauthorized_step h
  | startDispatch id => exact hcommit fun t h => startDispatch_step h
  | finishDispatch id result => exact hcommit fun t h => finishDispatch_step h
  | observe attemptId status webhookEventId freshId =>
    simp only [step]
    split
    · rename_i db fact h
      cases status with
      | succeeded amount currency refundId => exact ⟨none, recordRefundFact_step h, nofun⟩
      | _ => cases h; exact hstay
    · exact hstay
  | applyStatus c =>
    simp only [step]
    split
    · exact hcommit (s := { s with calls := s.calls.erase c }) fun t h => applyStatus_step h
    · exact hstay
  | lose c => exact hstay
  | keepUnmatched provider txn amount currency webhookEventId freshId =>
    refine hcommit fun t h => ?_
    unfold recordUnmatchedFact at h
    split at h
    · cases h; exact .unchanged
    · obtain ⟨⟨u, inserted⟩, hins, h⟩ := bind_eq_ok.mp h
      cases h
      exact insertFact_step hins nofun
  | associate x =>
    refine hcommit fun t h => ?_
    obtain ⟨-, rfl⟩ := enforce_bind_ok h
    exact .associated _
  | decideAssociation x status =>
    refine hcommit fun t h => ?_
    obtain ⟨-, rfl⟩ := enforce_bind_ok h
    exact .associated _
  | allocate factId now =>
    simp only [step]
    cases hr : allocate s.db factId now with
    | error e => exact hstay
    | ok p =>
      obtain ⟨t, o⟩ := p
      rcases allocate_cases hr with ⟨rfl, -⟩ | ⟨b, rfl, -⟩ | ⟨f, z, hid, he, ht⟩
      · exact ⟨none, .unchanged, nofun⟩
      · exact ⟨none, .blocked b, nofun⟩
      · refine ⟨some f.id, (allocateTo_step he ht).1, fun id h => ⟨now, ?_⟩⟩
        rw [← Option.some.inj h, hid]

end

end NawaraCore.Refunds
