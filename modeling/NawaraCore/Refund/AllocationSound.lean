import Mathlib.Algebra.Order.Group.Int
import NawaraCore.Refund.RefundSound

/-!
# The allocation ledger

Every verified refund is split once between its authorization and the excess. The counters
of the authorizations are the sums of their shares, and a case is completed once.
-/

namespace NawaraCore.Refunds

open Payments (Uuid PaymentError Admitted enforce enforce_ok enforce_bind_ok trim maxSafeInteger)

/-- An ordinary refund returns the settling capture of its payment; every refund returns a capture of its payment. -/
def OnMoney (cs : Captures) (a : RefundAttempt) : Prop :=
  cs.paymentOf a.captureFactId = a.paymentId ∧ (a.captureSpecific ∨ a.captureFactId = cs.settling a.paymentId)

structure FactOk (s : Db) (f : RefundFact) : Prop where
  positive : 0 < f.amount
  bound : f.BoundIn s

structure AuthorizationOk (s : Db) (z : RefundAuthorization) : Prop where
  positive : 0 < z.approvedAmount
  attempt : ∃ a ∈ s.attempts, a.id = z.refundAttemptId ∧ a.paymentId = z.paymentId ∧ a.captureFactId = z.captureFactId

structure AllocationOk (s : Db) (x : RefundAllocation) : Prop where
  shares : 0 ≤ x.intended ∧ 0 ≤ x.excess ∧ x.intended + x.excess = x.amount
  fact : ∃ f ∈ s.facts, f.id = x.factId ∧ f.amount = x.amount ∧ f.currency = trim x.currency
  authorization : ∃ z ∈ s.authorizations, z.id = x.refundAuthorizationId ∧ z.currency = x.currency

structure Counted (s : Db) (z : RefundAuthorization) : Prop where
  total : z.allocatedIntended = s.intendedTotal z.id
  nonneg : 0 ≤ z.allocatedIntended
  bounded : z.allocatedIntended ≤ z.approvedAmount
  completed : z.completedAt.isSome ↔ z.allocatedIntended = z.approvedAmount
  event : s.outbox.filter (·.refundAuthorizationId = z.id) = if z.completedAt.isSome then [z.caseCompleted] else []

structure LedgerInv (cs : Captures) (s : Db) : Prop where
  attemptIds : (s.attempts.map (·.id)).Nodup
  attempts : ∀ a ∈ s.attempts, OnMoney cs a
  factIds : (s.facts.map (·.id)).Nodup
  facts : ∀ f ∈ s.facts, FactOk s f
  authorizationIds : (s.authorizations.map (·.id)).Nodup
  authorizationAttempts : (s.authorizations.map (·.refundAttemptId)).Nodup
  authorizations : ∀ z ∈ s.authorizations, AuthorizationOk s z
  allocationFacts : (s.allocations.map (·.factId)).Nodup
  allocations : ∀ x ∈ s.allocations, AllocationOk s x
  counters : ∀ z ∈ s.authorizations, Counted s z
  events : ∀ e ∈ s.outbox, ∃ z ∈ s.authorizations, z.id = e.refundAuthorizationId

theorem ledgerInv_new (cs : Captures) : LedgerInv cs Sys.new.db := by
  constructor <;> simp [Sys.new]

section
variable {cs : Captures} {s t : Db}

/-! ## Steps that only bring evidence -/

structure Evidence (cs : Captures) (s t : Db) : Prop where
  authorizations : t.authorizations = s.authorizations
  allocations : t.allocations = s.allocations
  outbox : t.outbox = s.outbox
  attemptIds : (t.attempts.map (·.id)).Nodup
  attempts : ∀ a ∈ t.attempts, OnMoney cs a
  sameMoney : ∀ a ∈ s.attempts, ∃ b ∈ t.attempts, SameMoney a b
  factIds : (t.facts.map (·.id)).Nodup
  facts : ∀ f ∈ t.facts, f ∈ s.facts ∨ FactOk t f
  kept : ∀ f ∈ s.facts, f ∈ t.facts

variable {z : RefundAuthorization}

theorem Counted.congr (h : Counted s z) (hx : t.allocations = s.allocations)
    (ho : t.outbox = s.outbox) : Counted t z where
  total := by rw [h.total]; simp only [Db.intendedTotal, hx]
  nonneg := h.nonneg
  bounded := h.bounded
  completed := h.completed
  event := by rw [ho]; exact h.event

theorem LedgerInv.evidence (h : LedgerInv cs s) (e : Evidence cs s t) : LedgerInv cs t where
  attemptIds := e.attemptIds
  attempts := e.attempts
  factIds := e.factIds
  facts f hf := by
    rcases e.facts f hf with hold | hok
    · refine ⟨(h.facts f hold).positive, fun b hb => ?_⟩
      obtain ⟨a, ha, hid, hp⟩ := (h.facts f hold).bound b hb
      obtain ⟨c, hc, hm⟩ := e.sameMoney a ha
      exact ⟨c, hc, hm.id.trans hid, hm.paymentId.trans hp⟩
    · exact hok
  authorizationIds := e.authorizations ▸ h.authorizationIds
  authorizationAttempts := e.authorizations ▸ h.authorizationAttempts
  authorizations z hz := by
    rw [e.authorizations] at hz
    obtain ⟨a, ha, hid, hp, hc⟩ := (h.authorizations z hz).attempt
    obtain ⟨b, hb, hm⟩ := e.sameMoney a ha
    exact ⟨(h.authorizations z hz).positive, b, hb, hm.id.trans hid, hm.paymentId.trans hp, hm.captureFactId.trans hc⟩
  allocationFacts := e.allocations ▸ h.allocationFacts
  allocations x hx := by
    rw [e.allocations] at hx
    obtain ⟨f, hf, hx'⟩ := (h.allocations x hx).fact
    exact ⟨(h.allocations x hx).shares, ⟨f, e.kept f hf, hx'⟩, by rw [e.authorizations]; exact (h.allocations x hx).authorization⟩
  counters z hz := (h.counters z (e.authorizations ▸ hz)).congr e.allocations e.outbox
  events := by rw [e.outbox, e.authorizations]; exact h.events

theorem LedgerInv.idle (h : LedgerInv cs s) (ha : t.attempts = s.attempts) (hf : t.facts = s.facts)
    (hz : t.authorizations = s.authorizations) (hx : t.allocations = s.allocations) (ho : t.outbox = s.outbox) :
    Evidence cs s t where
  authorizations := hz
  allocations := hx
  outbox := ho
  attemptIds := ha ▸ h.attemptIds
  attempts := by rw [ha]; exact h.attempts
  sameMoney a hm := ⟨a, ha ▸ hm, rfl, rfl, rfl, rfl, rfl, rfl, rfl, rfl⟩
  factIds := hf ▸ h.factIds
  facts f hm := .inl (hf ▸ hm)
  kept f hm := hf ▸ hm

theorem insertConflict_tables (s : Db) (c : RefundFactConflict) :
    (s.insertConflict c).attempts = s.attempts ∧ (s.insertConflict c).facts = s.facts ∧
      (s.insertConflict c).authorizations = s.authorizations ∧ (s.insertConflict c).allocations = s.allocations ∧
      (s.insertConflict c).outbox = s.outbox := by
  unfold Db.insertConflict
  split <;> exact ⟨rfl, rfl, rfl, rfl, rfl⟩

theorem LedgerInv.requested (h : LedgerInv cs s) {a : RefundAttempt} (hc : Admitted (attemptInsertChecks cs s a)) :
    Evidence cs s { s with attempts := s.attempts ++ [a] } := by
  simp only [Admitted, attemptInsertChecks, List.cons_append, List.forall_mem_cons, Bool.not_eq_true',
    List.any_eq_false, decide_eq_true_eq] at hc
  obtain ⟨-, -, hcap, -, -, hpk, -⟩ := hc
  refine ⟨rfl, rfl, rfl, nodup_append_row h.attemptIds hpk, fun b hb => ?_,
    fun b hb => ⟨b, List.mem_append_left _ hb, rfl, rfl, rfl, rfl, rfl, rfl, rfl, rfl⟩, h.factIds,
    fun f hf => .inl hf, fun f hf => hf⟩
  rcases mem_append_row hb with hb | rfl
  · exact h.attempts b hb
  · exact ⟨hcap.1, hcap.2.2.2.2⟩

variable {a b : RefundAttempt}

theorem OnMoney.congr (h : OnMoney cs a) (hm : SameMoney a b) : OnMoney cs b := by
  unfold OnMoney
  rw [hm.captureFactId, hm.paymentId, hm.captureSpecific]
  exact h

theorem LedgerInv.updated (h : LedgerInv cs s) (ha : a ∈ s.attempts) (hm : SameMoney a b) :
    Evidence cs s (s.replaceAttempt b) := by
  refine ⟨rfl, rfl, rfl, ?_, fun c hc => ?_, fun c hc => ?_, h.factIds, fun f hf => .inl hf, fun f hf => hf⟩
  · exact (map_replaceRow (l := s.attempts) (f := (·.id)) fun _ _ he => he) ▸ h.attemptIds
  · rcases mem_replaceRow hc with rfl | ⟨hc, -⟩
    · exact (h.attempts a ha).congr hm
    · exact h.attempts c hc
  · by_cases hid : c.id = b.id
    · obtain rfl := eq_of_key h.attemptIds hc ha (hid.trans hm.id)
      exact ⟨b, replaceRow_mem ha hid, hm⟩
    · exact ⟨c, replaceRow_other hc hid, rfl, rfl, rfl, rfl, rfl, rfl, rfl, rfl⟩

theorem LedgerInv.observed (h : LedgerInv cs s) {f : RefundFact} (hc : Admitted (factChecks s f))
    (hb : f.BoundIn s) : Evidence cs s { s with facts := s.facts ++ [f] } := by
  simp only [Admitted, factChecks, List.forall_mem_cons, Bool.not_eq_true', List.any_eq_false, decide_eq_true_eq] at hc
  refine ⟨rfl, rfl, rfl, h.attemptIds, h.attempts, fun a ha => ⟨a, ha, rfl, rfl, rfl, rfl, rfl, rfl, rfl, rfl⟩,
    nodup_append_row h.factIds hc.1, fun g hg => ?_, fun g hg => List.mem_append_left _ hg⟩
  rcases mem_append_row hg with hg | rfl
  · exact .inl hg
  · exact .inr ⟨hc.2.2.1.1, hb⟩

theorem LedgerInv.authorized (h : LedgerInv cs s)
    (hz : Admitted (authorizationInsertChecks s z)) :
    LedgerInv cs { s with authorizations := s.authorizations ++ [z] } := by
  simp only [Admitted, authorizationInsertChecks, List.forall_mem_cons, Bool.not_eq_true', List.any_eq_false,
    List.any_eq_true, decide_eq_true_eq] at hz
  obtain ⟨⟨a, ha, hid, -, hp, -, -, -, hcap, -⟩, ⟨h0, hnone⟩, hpos, hpk, hatt, -⟩ := hz
  have hold : ∀ y ∈ s.authorizations, y ∈ s.authorizations ++ [z] := fun y hy => List.mem_append_left _ hy
  have htotal : s.intendedTotal z.id = 0 := by
    have : s.allocations.filter (·.refundAuthorizationId = z.id) = [] := by
      rw [List.filter_eq_nil_iff]
      intro x hx
      obtain ⟨y, hy, hyx, -⟩ := (h.allocations x hx).authorization
      simpa [← hyx] using hpk y hy
    simp [Db.intendedTotal, this]
  have hevent : s.outbox.filter (·.refundAuthorizationId = z.id) = [] := by
    rw [List.filter_eq_nil_iff]
    intro e he
    obtain ⟨y, hy, hye⟩ := h.events e he
    simpa [← hye] using hpk y hy
  refine ⟨h.attemptIds, h.attempts, h.factIds, fun f hf => ⟨(h.facts f hf).positive, (h.facts f hf).bound⟩,
    nodup_append_row h.authorizationIds hpk, nodup_append_row h.authorizationAttempts hatt, fun y hy => ?_,
    h.allocationFacts, fun x hx => ?_, fun y hy => ?_, fun e he => ?_⟩
  · rcases mem_append_row hy with hy | rfl
    · exact ⟨(h.authorizations y hy).positive, (h.authorizations y hy).attempt⟩
    · exact ⟨hpos.1, a, ha, hid, hp, hcap⟩
  · obtain ⟨y, hy, hyx⟩ := (h.allocations x hx).authorization
    exact ⟨(h.allocations x hx).shares, (h.allocations x hx).fact, y, hold y hy, hyx⟩
  · rcases mem_append_row hy with hy | rfl
    · exact (h.counters y hy).congr rfl rfl
    · refine ⟨by rw [h0]; exact htotal.symm, h0.ge, by rw [h0]; exact hpos.1.le, ?_, ?_⟩
      · rw [hnone, h0]
        simp [hpos.1.ne]
      · rw [hnone]
        exact hevent
  · obtain ⟨y, hy, hye⟩ := h.events e he
    exact ⟨y, hold y hy, hye⟩

/-! ## An allocation -/

theorem intendedTotal_append (s : Db) (x : RefundAllocation) (id : Uuid) :
    ({ s with allocations := s.allocations ++ [x] } : Db).intendedTotal id =
      s.intendedTotal id + if x.refundAuthorizationId = id then x.intended else 0 := by
  unfold Db.intendedTotal
  by_cases hx : x.refundAuthorizationId = id <;> simp [List.filter_append, hx]

@[simp] theorem complete_attempts (s : Db) (z : RefundAuthorization) : (s.complete z).attempts = s.attempts := by
  unfold Db.complete; split <;> rfl

@[simp] theorem complete_facts (s : Db) (z : RefundAuthorization) : (s.complete z).facts = s.facts := by
  unfold Db.complete; split <;> rfl

@[simp] theorem complete_authorizations (s : Db) (z : RefundAuthorization) :
    (s.complete z).authorizations = s.authorizations := by
  unfold Db.complete; split <;> rfl

@[simp] theorem complete_allocations (s : Db) (z : RefundAuthorization) :
    (s.complete z).allocations = s.allocations := by
  unfold Db.complete; split <;> rfl

theorem complete_outbox (s : Db) (z : RefundAuthorization) :
    (s.complete z).outbox = s.outbox ++ if z.completedAt.isSome then [z.caseCompleted] else [] := by
  unfold Db.complete
  split <;> simp

section
variable {f : RefundFact} {z : RefundAuthorization} {n : Int}

theorem Eligible.mem (he : Eligible s f z) : f ∈ s.facts := List.mem_of_find?_eq_some he.fact

theorem Eligible.mem_authorization (he : Eligible s f z) : z ∈ s.authorizations :=
  List.mem_of_find?_eq_some he.authorization

theorem intended_nonneg : 0 ≤ s.intended z f.amount := le_max_left _ _

theorem open_of_intended (hz : z ∈ s.authorizations) (hp : 0 < s.intended z f.amount) :
    s.done z = false ∧ z.completedAt = none := by
  have hd : s.done z = false := by
    by_contra hd
    have hd : s.done z = true := by simpa using hd
    simp only [Db.intended, Db.remaining, hd, if_true] at hp
    omega
  refine ⟨hd, ?_⟩
  simp only [Db.done, List.any_eq_false, decide_eq_true_eq, not_and, not_or] at hd
  by_contra hc
  exact (hd z hz (by rw [Option.isSome_iff_ne_none]; exact hc)).1 rfl

theorem allocated_excess (h0 : s.intended z f.amount ≤ 0) :
    s.allocated f z n = { s with allocations := s.allocations ++ [z.allocation f (s.intended z f.amount)] } :=
  if_pos h0

theorem allocated_paid (hp : 0 < s.intended z f.amount) :
    s.allocated f z n =
      (({ s with allocations := s.allocations ++ [z.allocation f (s.intended z f.amount)] } : Db).replaceAuthorization
        (z.advance (s.intended z f.amount) n)).complete (z.advance (s.intended z f.amount) n) :=
  if_neg (not_le.mpr hp)

@[simp] theorem allocated_attempts : (s.allocated f z n).attempts = s.attempts := by
  rcases le_or_gt (s.intended z f.amount) 0 with h0 | hp
  · rw [allocated_excess h0]
  · rw [allocated_paid hp, complete_attempts]; rfl

@[simp] theorem allocated_facts : (s.allocated f z n).facts = s.facts := by
  rcases le_or_gt (s.intended z f.amount) 0 with h0 | hp
  · rw [allocated_excess h0]
  · rw [allocated_paid hp, complete_facts]; rfl

@[simp] theorem allocated_allocations :
    (s.allocated f z n).allocations = s.allocations ++ [z.allocation f (s.intended z f.amount)] := by
  rcases le_or_gt (s.intended z f.amount) 0 with h0 | hp
  · rw [allocated_excess h0]
  · rw [allocated_paid hp, complete_allocations]; rfl

/-- What an authorization becomes when a fact is allocated to `z`. -/
def allocatedRow (s : Db) (f : RefundFact) (z : RefundAuthorization) (n : Int) : RefundAuthorization :=
  if s.intended z f.amount ≤ 0 then z else z.advance (s.intended z f.amount) n

theorem allocatedRow_id : (allocatedRow s f z n).id = z.id := by unfold allocatedRow; split <;> rfl

theorem allocated_authorizations (h : LedgerInv cs s) (hz : z ∈ s.authorizations) :
    (s.allocated f z n).authorizations = replaceRow (·.id) (allocatedRow s f z n) s.authorizations := by
  unfold allocatedRow
  rcases le_or_gt (s.intended z f.amount) 0 with h0 | hp
  · rw [allocated_excess h0, if_pos h0]
    refine (List.map_id _).symm.trans (List.map_congr_left fun y hy => ?_)
    by_cases hid : y.id = z.id
    · simp only [if_pos hid]
      exact eq_of_key h.authorizationIds hy hz hid
    · simp only [if_neg hid]; rfl
  · rw [allocated_paid hp, if_neg (not_le.mpr hp), complete_authorizations]
    rfl

theorem allocated_outbox :
    (s.allocated f z n).outbox = s.outbox ++
      if 0 < s.intended z f.amount ∧ (allocatedRow s f z n).completedAt.isSome then [(allocatedRow s f z n).caseCompleted] else [] := by
  unfold allocatedRow
  rcases le_or_gt (s.intended z f.amount) 0 with h0 | hp
  · rw [allocated_excess h0, if_neg (fun h => absurd h.1 (not_lt.mpr h0)), List.append_nil]
  · simp only [allocated_paid hp, if_neg (not_le.mpr hp), complete_outbox, hp, true_and]
    rfl

theorem intendedTotal_allocated (id : Uuid) :
    (s.allocated f z n).intendedTotal id =
      s.intendedTotal id + if z.id = id then s.intended z f.amount else 0 := by
  refine Eq.trans ?_ (intendedTotal_append s (z.allocation f (s.intended z f.amount)) id)
  simp only [Db.intendedTotal, allocated_allocations]

theorem counted_after (h : LedgerInv cs s) (he : Eligible s f z)
    (hu : 0 < s.intended z f.amount →
      Admitted (authorizationUpdateChecks s z (z.advance (s.intended z f.amount) n))) :
    Counted (s.allocated f z n) (allocatedRow s f z n) := by
  have hz := he.mem_authorization
  have hk := h.counters z hz
  have htotal := intendedTotal_allocated (s := s) (f := f) (z := z) (n := n) z.id
  rw [if_pos rfl] at htotal
  rcases le_or_gt (s.intended z f.amount) 0 with h0 | hp
  · have hzero : s.intended z f.amount = 0 := le_antisymm h0 intended_nonneg
    have hafter : allocatedRow s f z n = z := if_pos h0
    rw [hafter]
    refine ⟨by rw [htotal, hzero, add_zero]; exact hk.total, hk.nonneg, hk.bounded, hk.completed, ?_⟩
    rw [allocated_outbox, if_neg (fun h => absurd h.1 (not_lt.mpr h0)), List.append_nil]
    exact hk.event
  · have hafter : allocatedRow s f z n = z.advance (s.intended z f.amount) n := if_neg (not_le.mpr hp)
    have hnone := (open_of_intended hz hp).2
    have hold := hk.event
    rw [hnone, if_neg (by simp)] at hold
    have hb := (hu hp _ List.mem_cons_self)
    simp only [decide_eq_true_eq] at hb
    rw [hafter]
    refine ⟨?_, hb.1, hb.2, ?_, ?_⟩
    · show z.allocatedIntended + s.intended z f.amount = (s.allocated f z n).intendedTotal z.id
      rw [htotal, hk.total]
    · show (if z.allocatedIntended + s.intended z f.amount = z.approvedAmount then some n else none).isSome ↔ _
      split <;> simpa [RefundAuthorization.advance]
    · rw [allocated_outbox, hafter, List.filter_append]
      show s.outbox.filter (·.refundAuthorizationId = z.id) ++ _ = _
      rw [hold, List.nil_append]
      by_cases hc : (z.advance (s.intended z f.amount) n).completedAt.isSome
      · simp only [hp, hc, and_self, if_true]
        simp [RefundAuthorization.caseCompleted, RefundAuthorization.advance]
      · simp [hc]

theorem counted_other (h : LedgerInv cs s) {y : RefundAuthorization} (hy : y ∈ s.authorizations) (hne : y.id ≠ z.id) : Counted (s.allocated f z n) y := by
  have hk := h.counters y hy
  refine ⟨?_, hk.nonneg, hk.bounded, hk.completed, ?_⟩
  · rw [intendedTotal_allocated, if_neg hne.symm, add_zero]
    exact hk.total
  · rw [allocated_outbox, List.filter_append]
    have : (if 0 < s.intended z f.amount ∧ (allocatedRow s f z n).completedAt.isSome then
        [(allocatedRow s f z n).caseCompleted] else []).filter (·.refundAuthorizationId = y.id) = [] := by
      rw [List.filter_eq_nil_iff]
      intro e hm
      split at hm
      · rw [List.mem_singleton.mp hm]
        simpa [RefundAuthorization.caseCompleted, allocatedRow_id] using hne.symm
      · cases hm
    rw [this, List.append_nil]
    exact hk.event

theorem allocatedRow_same : (allocatedRow s f z n).refundAttemptId = z.refundAttemptId ∧
    (allocatedRow s f z n).paymentId = z.paymentId ∧ (allocatedRow s f z n).captureFactId = z.captureFactId ∧
    (allocatedRow s f z n).approvedAmount = z.approvedAmount ∧ (allocatedRow s f z n).currency = z.currency ∧
    (allocatedRow s f z n).refundCaseId = z.refundCaseId := by
  unfold allocatedRow
  split <;> exact ⟨rfl, rfl, rfl, rfl, rfl, rfl⟩

theorem LedgerInv.allocated (h : LedgerInv cs s) (he : Eligible s f z)
    (hc : Admitted (allocationChecks s (z.allocation f (s.intended z f.amount))))
    (hu : 0 < s.intended z f.amount →
      Admitted (authorizationUpdateChecks s z (z.advance (s.intended z f.amount) n))) :
    LedgerInv cs (s.allocated f z n) := by
  have hz := he.mem_authorization
  have hzs := allocated_authorizations (f := f) (n := n) h hz
  obtain ⟨hatt, hpay, hcap, happ, hcur, -⟩ := allocatedRow_same (s := s) (f := f) (z := z) (n := n)
  have hid := allocatedRow_id (s := s) (f := f) (z := z) (n := n)
  -- an authorization keeps its row but for the counter and the completion
  have hkeep : ∀ y ∈ s.authorizations, ∃ w ∈ (s.allocated f z n).authorizations, w.id = y.id ∧ w.currency = y.currency := by
    intro y hy
    rw [hzs]
    by_cases hyz : y.id = (allocatedRow s f z n).id
    · obtain rfl := eq_of_key h.authorizationIds hy hz (hyz.trans hid)
      exact ⟨_, replaceRow_mem hy hyz, hyz.symm, hcur⟩
    · exact ⟨y, replaceRow_other hy hyz, rfl, rfl⟩
  have hz_of : ∀ y ∈ s.authorizations, y.id = (allocatedRow s f z n).id → y = z :=
    fun y hy hyz => eq_of_key h.authorizationIds hy hz (hyz.trans hid)
  simp only [Admitted, allocationChecks, List.forall_mem_cons, Bool.not_eq_true', List.any_eq_false, decide_eq_true_eq] at hc
  refine ⟨?_, ?_, ?_, ?_, ?_, ?_, fun y hy => ?_, ?_, fun x hx => ?_, fun y hy => ?_, fun e hm => ?_⟩
  · rw [allocated_attempts]; exact h.attemptIds
  · rw [allocated_attempts]; exact h.attempts
  · rw [allocated_facts]; exact h.factIds
  · intro g hg
    rw [allocated_facts] at hg
    refine ⟨(h.facts g hg).positive, ?_⟩
    unfold RefundFact.BoundIn
    rw [allocated_attempts]
    exact (h.facts g hg).bound
  · rw [hzs, map_replaceRow (fun _ _ he => he)]
    exact h.authorizationIds
  · rw [hzs, map_replaceRow (fun y hy hyz => by rw [hz_of y hy hyz, hatt])]
    exact h.authorizationAttempts
  · rw [hzs] at hy
    rcases mem_replaceRow hy with rfl | ⟨hy, -⟩
    · have hok := h.authorizations z hz
      refine ⟨by rw [happ]; exact hok.positive, ?_⟩
      rw [hatt, hpay, hcap, allocated_attempts]
      exact hok.attempt
    · have hok := h.authorizations y hy
      exact ⟨hok.positive, by rw [allocated_attempts]; exact hok.attempt⟩
  · rw [allocated_allocations]
    exact nodup_append_row h.allocationFacts hc.2.1
  · rw [allocated_allocations] at hx
    rcases mem_append_row hx with hx | rfl
    · have hok := h.allocations x hx
      obtain ⟨y, hy, hyx, hyc⟩ := hok.authorization
      obtain ⟨w, hw, hwy, hwc⟩ := hkeep y hy
      exact ⟨hok.shares, by rw [allocated_facts]; exact hok.fact, w, hw, hwy.trans hyx, hwc.trans hyc⟩
    · obtain ⟨w, hw, hwz, hwc⟩ := hkeep z hz
      refine ⟨hc.1.2, ⟨f, by rw [allocated_facts]; exact he.mem, rfl, rfl, he.currency⟩, w, hw, hwz, hwc⟩
  · rw [hzs] at hy
    rcases mem_replaceRow hy with rfl | ⟨hy, hne⟩
    · exact counted_after h he hu
    · exact counted_other h hy (by rw [← hid]; exact hne)
  · rw [allocated_outbox] at hm
    rcases List.mem_append.mp hm with hm | hm
    · obtain ⟨y, hy, hye⟩ := h.events e hm
      obtain ⟨w, hw, hwy, -⟩ := hkeep y hy
      exact ⟨w, hw, hwy.trans hye⟩
    · split at hm
      · rw [List.mem_singleton.mp hm]
        obtain ⟨w, hw, hwz, -⟩ := hkeep z hz
        exact ⟨w, hw, hwz.trans hid.symm⟩
      · cases hm

end

variable {l : Option Uuid}

theorem LedgerInv.step (h : LedgerInv cs s) (hs : DbStep cs s l t) : LedgerInv cs t := by
  cases hs with
  | unchanged => exact h
  | requested a hc => exact h.evidence (h.requested hc)
  | refused ids => exact h.evidence (h.idle rfl rfl rfl rfl rfl)
  | updated a b ha hm hc => exact h.evidence (h.updated ha hm)
  | authorized a b z ha hm hc hz => exact (h.evidence (h.updated ha hm)).authorized hz
  | observed f hc hb hn => exact h.evidence (h.observed hc hb)
  | contradicted c =>
    obtain ⟨ha, hf, hz, hx, ho⟩ := insertConflict_tables s c
    exact h.evidence (h.idle ha hf hz hx ho)
  | associated as => exact h.evidence (h.idle rfl rfl rfl rfl rfl)
  | blocked b => exact h.evidence (h.idle rfl rfl rfl rfl rfl)
  | allocated f z n he hc hu => exact h.allocated he hc hu

theorem Runs.ledger {s : Sys} (h : Runs cs s) : LedgerInv cs s.db := by
  refine Reachable.invariant (P := fun s => LedgerInv cs s.db) ?_ ?_ h
  · rintro s rfl
    exact ledgerInv_new cs
  · rintro s t - hi ⟨a, rfl⟩
    obtain ⟨l, hl, -⟩ := step_dbStep cs s a
    exact hi.step hl

/-! ## No allocation fails -/

section
variable {f : RefundFact} {z : RefundAuthorization} {n : Int}

theorem LedgerInv.payment_of (h : LedgerInv cs s) (hz : z ∈ s.authorizations) :
    cs.paymentOf z.captureFactId = z.paymentId := by
  obtain ⟨a, ha, -, hp, hc⟩ := (h.authorizations z hz).attempt
  rw [← hc, ← hp]
  exact (h.attempts a ha).1

theorem Eligible.bound (h : LedgerInv cs s) (he : Eligible s f z) (intended : Int) :
    s.bound f (z.allocation f intended) := by
  have htarget := he.target
  unfold Db.target at htarget
  unfold Db.bound
  split at htarget
  · rename_i b hb
    have hid : b.refundAttemptId = z.refundAttemptId := by simpa using htarget
    obtain ⟨a, ha, hab, hap⟩ := (h.facts f he.mem).bound b hb
    obtain ⟨c, hc, hcz, hcp, -⟩ := (h.authorizations z he.mem_authorization).attempt
    obtain rfl := eq_of_key h.attemptIds ha hc (hab.trans (hid.trans hcz.symm))
    simp only [decide_eq_true_eq]
    exact ⟨hid, hap.symm.trans hcp⟩
  · split at htarget
    · cases htarget
    · rename_i x hx
      rw [Option.map_map] at htarget
      obtain ⟨y, hy, hyz⟩ := Option.map_eq_some_iff.mp htarget
      obtain rfl := eq_of_key h.authorizationAttempts (List.mem_of_find?_eq_some hy) he.mem_authorization hyz
      have hxf := List.find?_some hx
      have hyx := List.find?_some hy
      simp only [decide_eq_true_eq] at hxf hyx
      rw [List.any_eq_true]
      exact ⟨x, List.mem_of_find?_eq_some hx, by simp [hxf.1, hxf.2, hyx, RefundAuthorization.allocation]⟩

theorem intended_le (hpos : 0 < f.amount) : s.intended z f.amount ≤ f.amount :=
  max_le hpos.le (min_le_left _ _)

theorem Eligible.allocation_admitted (h : LedgerInv cs s) (he : Eligible s f z) :
    Admitted (allocationChecks s (z.allocation f (s.intended z f.amount))) := by
  have hpos := (h.facts f he.mem).positive
  have hle := intended_le (s := s) (z := z) hpos
  have hbound := he.bound h (s.intended z f.amount)
  simp only [Admitted, allocationChecks, List.forall_mem_cons, Bool.not_eq_true', List.any_eq_false, List.any_eq_true,
    decide_eq_true_eq]
  refine ⟨⟨hpos, intended_nonneg, ?_, ?_⟩, he.fresh, ⟨⟨f, he.mem, rfl, rfl, he.currency, hbound⟩, ?_⟩,
    ⟨he.uncontested, he.unblocked⟩, nofun⟩
  · show 0 ≤ f.amount - s.intended z f.amount
    omega
  · show s.intended z f.amount + (f.amount - s.intended z f.amount) = f.amount
    omega
  · exact ⟨z, he.mem_authorization, rfl, rfl, rfl, rfl⟩

theorem Eligible.update_admitted (h : LedgerInv cs s) (he : Eligible s f z) (hp : 0 < s.intended z f.amount) :
    Admitted (authorizationUpdateChecks s z (z.advance (s.intended z f.amount) n)) := by
  have hz := he.mem_authorization
  obtain ⟨hdone, hnone⟩ := open_of_intended hz hp
  have hk := h.counters z hz
  have hfits : z.allocatedIntended + s.intended z f.amount ≤ z.approvedAmount := by
    have hr : s.intended z f.amount ≤ z.approvedAmount - z.allocatedIntended := by
      refine max_le (sub_nonneg.mpr hk.bounded) ((min_le_right _ _).trans ?_)
      simp [Db.remaining, hdone]
    omega
  have hkn := hk.nonneg
  simp only [Db.done, List.any_eq_false, decide_eq_true_eq, not_and, not_or] at hdone
  simp only [Admitted, authorizationUpdateChecks, List.forall_mem_cons, Bool.not_eq_true', List.any_eq_false,
    decide_eq_true_eq, List.mem_filter, and_imp]
  refine ⟨⟨?_, hfits⟩, ?_, ?_, .inl hnone, .inr ?_, .inr (.inr ?_), .inr ?_, nofun⟩
  · show 0 ≤ z.allocatedIntended + s.intended z f.amount
    omega
  · show (if z.allocatedIntended + s.intended z f.amount = z.approvedAmount then some n else none).isSome =
      decide (z.allocatedIntended + s.intended z f.amount = z.approvedAmount)
    split <;> rename_i hc <;> simp [hc]
  · show z.allocatedIntended ≤ z.allocatedIntended + s.intended z f.amount
    omega
  · exact fun x hx _ hc => (hdone x hx hc).1
  · exact fun x hx _ hc hp => (hdone x hx hc).2 hp.2
  · intro x hx _ hc hcap
    have hcap : x.captureFactId = z.captureFactId := hcap
    exact (hdone x hx hc).2 (by rw [← h.payment_of hx, ← h.payment_of hz, hcap])

theorem Eligible.allocate_eq (he : Eligible s f z) : allocate s f.id n = allocateTo s f z n := by
  obtain ⟨b, hb, hbz⟩ := Option.map_eq_some_iff.mp he.target
  have hfresh : (s.allocations.any fun x => x.factId = f.id) = false := by simpa using he.fresh
  have hblocks : s.blocks.find? (·.factId = f.id) = none := by
    rw [List.find?_eq_none]
    simpa using he.unblocked
  unfold allocate
  rw [he.fact]
  simp only [hb, hfresh, hblocks, hbz, he.authorization, he.uncontested, he.currency, Bool.false_eq_true, if_false,
    ne_eq, not_true_eq_false]

theorem Eligible.allocate_succeeds (h : LedgerInv cs s) (he : Eligible s f z) (n : Int) :
    ∃ completed, allocate s f.id n = .ok (s.allocated f z n,
      .allocated (s.intended z f.amount) (f.amount - s.intended z f.amount) completed) := by
  have hc := he.allocation_admitted h
  have hi := h.allocated he hc (fun hp => he.update_admitted (n := n) h hp)
  have hsum : ∀ u : Db, u.authorizations = (s.allocated f z n).authorizations →
      u.allocations = (s.allocated f z n).allocations → u.sumCheck z.id = .ok () := by
    intro u hz hx
    refine enforce_ok.mpr ?_
    simp only [List.forall_mem_cons, List.all_eq_true, decide_eq_true_eq]
    refine ⟨fun y hy => or_iff_not_imp_left.mpr fun hid => ?_, nofun⟩
    have hid : y.id = z.id := not_not.mp hid
    rw [hz] at hy
    rw [(hi.counters y hy).total, hid]
    simp only [Db.intendedTotal, hx]
  rw [he.allocate_eq]
  rcases le_or_gt (s.intended z f.amount) 0 with h0 | hp
  · refine ⟨false, bind_eq_ok.mpr ⟨_, bind_eq_ok.mpr ⟨(), enforce_ok.mpr hc, rfl⟩, ?_⟩⟩
    rw [if_pos h0]
    refine bind_eq_ok.mpr ⟨(), hsum _ ?_ ?_, ?_⟩
    · rw [allocated_excess h0]
    · rw [allocated_excess h0]
    · rw [allocated_excess h0]; rfl
  · refine ⟨(z.advance (s.intended z f.amount) n).completedAt.isSome,
      bind_eq_ok.mpr ⟨_, bind_eq_ok.mpr ⟨(), enforce_ok.mpr hc, rfl⟩, ?_⟩⟩
    rw [if_neg (not_le.mpr hp)]
    have hup : enforce (authorizationUpdateChecks s z (z.advance (s.intended z f.amount) n)) = .ok () :=
      enforce_ok.mpr (he.update_admitted h hp)
    refine bind_eq_ok.mpr ⟨_, bind_eq_ok.mpr ⟨(), hup, rfl⟩, ?_⟩
    refine bind_eq_ok.mpr ⟨(), hsum _ ?_ ?_, ?_⟩
    · rw [allocated_paid hp, complete_authorizations]
    · rw [allocated_paid hp, complete_allocations]
    · rw [allocated_paid hp]; rfl

end

structure LedgerStep (s t : Db) : Prop where
  /-- Only an eligible fact is allocated, with its own split. -/
  eligible : t.allocations = s.allocations ∨
    ∃ f z, Eligible s f z ∧ t.allocations = s.allocations ++ [z.allocation f (s.intended z f.amount)]
  /-- A counter only grows, and a completed authorization never changes. -/
  progress : ∀ z ∈ s.authorizations, ∃ w ∈ t.authorizations, w.id = z.id ∧
    z.allocatedIntended ≤ w.allocatedIntended ∧ (z.completedAt.isSome → w = z)

theorem LedgerStep.of_same (hx : t.allocations = s.allocations) (hz : ∀ z ∈ s.authorizations, z ∈ t.authorizations) :
    LedgerStep s t :=
  ⟨.inl hx, fun z h => ⟨z, hz z h, rfl, le_refl _, fun _ => rfl⟩⟩

theorem LedgerInv.ledgerStep (h : LedgerInv cs s) (hs : DbStep cs s l t) : LedgerStep s t := by
  cases hs with
  | unchanged => exact .of_same rfl fun _ hz => hz
  | requested a hc => exact .of_same rfl fun _ hz => hz
  | refused ids => exact .of_same rfl fun _ hz => hz
  | updated a b ha hm hc => exact .of_same rfl fun _ hz => hz
  | authorized a b z ha hm hc hz => exact .of_same rfl fun _ hz => List.mem_append_left _ hz
  | observed f hc hb hn => exact .of_same rfl fun _ hz => hz
  | contradicted c =>
    obtain ⟨-, -, hz, hx, -⟩ := insertConflict_tables s c
    exact .of_same hx (by rw [hz]; exact fun _ h => h)
  | associated as => exact .of_same rfl fun _ hz => hz
  | blocked b => exact .of_same rfl fun _ hz => hz
  | allocated f z n he hc hu =>
    refine ⟨.inr ⟨f, z, he, allocated_allocations⟩, fun y hy => ?_⟩
    have hz := he.mem_authorization
    rw [allocated_authorizations h hz]
    by_cases hyz : y.id = (allocatedRow s f z n).id
    · obtain rfl := eq_of_key h.authorizationIds hy hz (hyz.trans allocatedRow_id)
      refine ⟨_, replaceRow_mem hy hyz, hyz.symm, ?_, ?_⟩ <;> unfold allocatedRow <;> split
      · exact le_refl _
      · exact le_add_of_nonneg_right intended_nonneg
      · exact fun _ => rfl
      · rename_i hp
        intro hc
        rw [(open_of_intended hz (not_le.mp hp)).2] at hc
        cases hc
    · exact ⟨y, replaceRow_other hy hyz, rfl, le_refl _, fun _ => rfl⟩

end

end NawaraCore.Refunds
