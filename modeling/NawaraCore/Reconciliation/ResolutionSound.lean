import NawaraCore.Reconciliation.EvidenceSound

/-!
# How a case is resolved

A resolution is never replaced, and the evidence that the worker chooses always satisfies the
database's guard. A refund resolves a case of captured money soundly as long as the worker
reads no case without a capture fact beside the completed refund of another capture.
-/

namespace NawaraCore.Reconciliation

open Subscriptions (Uuid)
open Losses (Capture)

/-! ## The worker's choice -/

variable {ref : Ref}

section
variable {db db' : Db} {c : ReconciliationCase}

theorem finds_supports (he : Evidenced db) (hs : db.states c) (h : db.finds c ref = true) : db.supports c ref.kind = true := by
  cases ref with
  | applied => simpa [Db.finds, Db.supports, Ref.kind] using h
  | surplusRefund => simpa [Db.finds, Db.supports, Ref.kind] using h
  | surplusRepaid =>
    simp only [Db.finds, decide_eq_true_eq] at h
    simp [Db.supports, Ref.kind, h.1, h.2.2]
  | effect => simpa [Db.finds, Db.supports, Ref.kind] using h
  | definitive => simpa [Db.finds, Db.supports, Ref.kind] using h
  | refund id =>
    obtain ⟨r, hr, h⟩ := List.any_eq_true.mp h
    obtain ⟨hid, hcompleted, hfits⟩ := of_decide_eq_true h
    refine List.any_eq_true.mpr ⟨r, hr, decide_eq_true ⟨hid, ?_⟩⟩
    unfold Db.fits at hfits
    cases ht : c.caseType with
    | late_assisted_settlement =>
      simp only [ht, decide_eq_true_eq] at hfits
      obtain ⟨-, hp, hel⟩ := hfits
      obtain ⟨-, hcap⟩ := he.settlement_returned hs ht hp hel hr hcompleted
      refine .inl ⟨rfl, decide_eq_true ⟨hcompleted, hp, ?_⟩, fun _ => hel⟩
      rw [hcap]
      cases r.capture <;> simp
    | late_success | unmatched_capture | unrouted_settlement =>
      simp only [ht] at hfits
      exact .inl ⟨rfl, hfits, nofun⟩
    | chargeback_effect_waiting =>
      simp only [ht, decide_eq_true_eq] at hfits
      exact .inr ⟨rfl, hcompleted, hfits.1, hfits.2⟩
    | _ =>
      simp only [ht] at hfits
      cases hfits

theorem supports_later (h : Later db db') (hs : db.supports c ref.kind = true) : db'.supports c ref.kind = true := by
  cases ref with
  | applied =>
    simp only [Db.supports, Ref.kind, decide_eq_true_eq] at hs ⊢
    exact ⟨hs.1, h.applications hs.2⟩
  | surplusRefund =>
    simp only [Db.supports, Ref.kind, decide_eq_true_eq] at hs ⊢
    exact ⟨hs.1, h.surplusRefunds hs.2⟩
  | surplusRepaid =>
    simp only [Db.supports, Ref.kind, decide_eq_true_eq] at hs ⊢
    exact ⟨hs.1, h.surplusConfirmations hs.2⟩
  | effect =>
    simp only [Db.supports, Ref.kind, decide_eq_true_eq] at hs ⊢
    rcases hs with ⟨ht, he | he⟩ | ⟨ht, he⟩
    · exact .inl ⟨ht, .inl (h.refundEffects he)⟩
    · exact .inl ⟨ht, .inr (h.lossEffects he)⟩
    · exact .inr ⟨ht, h.appliedLosses he⟩
  | definitive =>
    simp only [Db.supports, Ref.kind, decide_eq_true_eq] at hs ⊢
    obtain ⟨ht, hs⟩ := hs
    obtain ⟨x, hx, hs⟩ := List.any_eq_true.mp hs
    obtain ⟨hid, hd⟩ := of_decide_eq_true hs
    obtain ⟨y, hy, hyx, hd'⟩ := h.relays x hx hd
    exact ⟨ht, List.any_eq_true.mpr ⟨y, hy, decide_eq_true ⟨hyx.trans hid, hd'⟩⟩⟩
  | refund id =>
    obtain ⟨r, hr, hs⟩ := List.any_eq_true.mp hs
    obtain ⟨hid, hs⟩ := of_decide_eq_true hs
    obtain ⟨status, hr', hc⟩ := h.refundCases r hr
    refine List.any_eq_true.mpr ⟨_, hr', decide_eq_true ⟨hid, ?_⟩⟩
    rcases hs with ⟨ht, hm, hel⟩ | ⟨ht, hcompleted, hn, hl⟩
    · have hm := of_decide_eq_true hm
      exact .inl ⟨ht, decide_eq_true ⟨hc hm.1, hm.2⟩, hel⟩
    · obtain ⟨l, hlm, hl⟩ := List.any_eq_true.mp hl
      obtain ⟨hd, hmove⟩ := of_decide_eq_true hl
      have hover : db.overlap l = true := List.any_eq_true.mpr ⟨r, hr, decide_eq_true ⟨hcompleted, hmove⟩⟩
      exact .inr ⟨ht, hc hcompleted, hd ▸ h.held l hlm hover (hd ▸ hn), List.any_eq_true.mpr ⟨l, h.losses hlm, decide_eq_true ⟨hd, hmove⟩⟩⟩

end

/-! ## The refund of another capture -/

def Db.completedRefunds (db : Db) (c : ReconciliationCase) : List RefundCase :=
  db.refundCases.filter fun r => r.status = .completed ∧ some r.paymentId = c.paymentId

/-- A case without a capture fact takes any completed refund of its payment: there is none for a late success, and none of
another capture for an unrouted settlement. -/
def Db.clear (db : Db) (c : ReconciliationCase) : Bool :=
  match c.caseType with
  | .late_success => c.captureFactId.isSome ∨ db.completedRefunds c = []
  | .unrouted_settlement => (db.completedRefunds c).all fun r => r.capture.all fun x => x.1 = .unrouted_capture
  | _ => true

section
variable {db : Db} {c : ReconciliationCase}

theorem mem_completedRefunds {r : RefundCase} :
    r ∈ db.completedRefunds c ↔ r ∈ db.refundCases ∧ r.status = .completed ∧ some r.paymentId = c.paymentId := by
  simp [Db.completedRefunds]

theorem finds_returned (he : Evidenced db) (hs : db.states c) (hclear : db.clear c = true) {id : Uuid}
    (h : db.finds c (.refund id) = true) (hm : c.caseType.capturedMoney = true) : ∃ r ∈ db.refundCases, r.id = id ∧ db.returnedBy c r := by
  obtain ⟨r, hr, h⟩ := List.any_eq_true.mp h
  obtain ⟨hid, hcompleted, hfits⟩ := of_decide_eq_true h
  refine ⟨r, hr, hid, ?_⟩
  unfold Db.fits at hfits
  cases ht : c.caseType with
  | late_assisted_settlement =>
    simp only [ht, decide_eq_true_eq] at hfits
    exact (he.settlement_returned hs ht hfits.2.1 hfits.2.2 hr hcompleted).1
  | late_success =>
    simp only [ht] at hfits
    obtain ⟨-, hp, hcap⟩ := of_decide_eq_true hfits
    unfold Db.states at hs
    simp only [ht] at hs
    obtain ⟨l, hl, hf, hpay⟩ := hs
    rw [hpay] at hp
    cases hfact : l.factId with
    | none =>
      unfold Db.clear at hclear
      simp only [ht, decide_eq_true_eq] at hclear
      rcases hclear with hsome | hnil
      · rw [hf, hfact] at hsome
        cases hsome
      · have := mem_completedRefunds.mpr ⟨hr, hcompleted, hp.trans hpay.symm⟩
        rw [hnil] at this
        cases this
    | some f =>
      rw [hf, hfact] at hcap
      refine ⟨hcompleted, .capture l.paymentId f, by simp [Db.movement, ht, hl, LateSuccess.movement, hfact], ?_⟩
      exact decide_eq_true ⟨Option.some.inj hp, hcap⟩
  | unmatched_capture =>
    simp only [ht] at hfits
    obtain ⟨-, hp, hcap⟩ := of_decide_eq_true hfits
    unfold Db.states at hs
    simp only [ht] at hs
    rw [hs] at hcap
    refine ⟨hcompleted, .capture r.paymentId c.evidenceKey, by simp [Db.movement, ht, ← hp], ?_⟩
    exact decide_eq_true ⟨rfl, hcap⟩
  | unrouted_settlement =>
    simp only [ht] at hfits
    obtain ⟨-, hp, -⟩ := of_decide_eq_true hfits
    unfold Db.states at hs
    simp only [ht] at hs
    obtain ⟨x, hx, hxp⟩ := hs.2 _ hp.symm
    refine ⟨hcompleted, .settling r.paymentId, by simp [Db.movement, ht, hx, PaymentRequest.movement, hxp], ?_⟩
    unfold Db.clear at hclear
    simp only [ht] at hclear
    have hcap := List.all_eq_true.mp hclear r (mem_completedRefunds.mpr ⟨hr, hcompleted, hp⟩)
    refine decide_eq_true ⟨rfl, ?_⟩
    cases hrc : r.capture with
    | none => rfl
    | some x =>
      rw [hrc] at hcap
      exact decide_eq_true (.inr (.inr hcap))
  | _ =>
    rw [ht] at hm
    cases hm

theorem finds_unreturned (he : Evidenced db) (hs : db.states c) (hclear : db.clear c = false) :
    ∃ id, db.finds c (.refund id) = true ∧ c.caseType.capturedMoney = true ∧ ∀ r ∈ db.refundCases, r.id = id → ¬ db.returnedBy c r := by
  unfold Db.clear at hclear
  cases ht : c.caseType with
  | late_success =>
    simp only [ht, decide_eq_false_iff_not, not_or] at hclear
    obtain ⟨hnone, hne⟩ := hclear
    obtain ⟨r, hr⟩ := List.exists_mem_of_ne_nil _ hne
    obtain ⟨hr, hcompleted, hp⟩ := mem_completedRefunds.mp hr
    have hcn : c.captureFactId = none := by simpa using hnone
    unfold Db.states at hs
    simp only [ht] at hs
    obtain ⟨l, hl, hf, -⟩ := hs
    refine ⟨r.id, List.any_eq_true.mpr ⟨r, hr, decide_eq_true ⟨rfl, hcompleted, ?_⟩⟩, rfl, ?_⟩
    · unfold Db.fits
      simp only [ht]
      exact decide_eq_true ⟨hcompleted, hp, by rw [hcn]; rfl⟩
    · rintro x - - ⟨-, m, hm, -⟩
      simp [Db.movement, ht, hl, LateSuccess.movement, ← hf, hcn] at hm
  | unrouted_settlement =>
    simp only [ht] at hclear
    obtain ⟨r, hr, hcap⟩ := List.all_eq_false.mp hclear
    obtain ⟨hr, hcompleted, hp⟩ := mem_completedRefunds.mp hr
    unfold Db.states at hs
    simp only [ht] at hs
    obtain ⟨y, hy, hyp⟩ := hs.2 _ hp.symm
    refine ⟨r.id, List.any_eq_true.mpr ⟨r, hr, decide_eq_true ⟨rfl, hcompleted, ?_⟩⟩, rfl, ?_⟩
    · unfold Db.fits
      simp only [ht]
      exact decide_eq_true ⟨hcompleted, hp, by rw [hs.1]; rfl⟩
    · rintro x hx hid ⟨-, m, hm, hb⟩
      rw [eq_of_key he.refundOnce hx hr hid] at hb
      simp only [Db.movement, ht, hy, Option.bind_some, PaymentRequest.movement, hyp, Option.map_some, Option.some.injEq] at hm
      subst hm
      cases hrc : r.capture with
      | none => simp [hrc] at hcap
      | some x =>
        rw [hrc] at hcap
        have hx : ¬ x.1 = .unrouted_capture := by simpa using hcap
        simp [Movement.returnedBy, Capture.refundedBy, hrc, hx] at hb
  | _ =>
    simp only [ht] at hclear
    cases hclear

end

/-! ## Steps -/

/-- Every resolution of a case of captured money by a refund is by a completed refund of exactly its movement. -/
def Db.resolvedSoundly (db : Db) : Prop :=
  ∀ x ∈ db.resolutions, ∃ c, db.case? x.caseId = some c ∧
    ∀ id, x.kind = .refund_completed id → c.caseType.capturedMoney = true → ∃ r ∈ db.refundCases, r.id = id ∧ db.returnedBy c r

def Sys.clear (s : Sys) : Action → Prop
  | .findEvidence caseId _ => ∀ c, s.db.case? caseId = some c → s.db.clear c = true
  | _ => True

structure Reconciled (s : Sys) : Prop where
  evidenced : Evidenced s.db
  found : ∀ caseId ref, (caseId, ref) ∈ s.found → ∃ c, s.db.case? caseId = some c ∧ s.db.supports c ref.kind = true
  once : (s.db.resolutions.map Resolution.caseId).Nodup

structure Sound (s : Sys) : Prop extends Reconciled s where
  returned : ∀ caseId id, (caseId, .refund id) ∈ s.found → ∀ c, s.db.case? caseId = some c → c.caseType.capturedMoney = true →
    ∃ r ∈ s.db.refundCases, r.id = id ∧ s.db.returnedBy c r
  resolved : s.db.resolvedSoundly

variable {c : ReconciliationCase}

theorem Later.returned {db db' : Db} (h : Later db db') {id : Uuid}
    (hr : ∃ r ∈ db.refundCases, r.id = id ∧ db.returnedBy c r) : ∃ r ∈ db'.refundCases, r.id = id ∧ db'.returnedBy c r := by
  obtain ⟨r, hm, hid, hb⟩ := hr
  obtain ⟨status, hm', hs⟩ := h.refundCases r hm
  exact ⟨_, hm', hid, h.returnedBy hs hb⟩

variable {s : Sys}

theorem step_found {a : Action} {caseId : Uuid} (h : (caseId, ref) ∈ (step s a).found) :
    (caseId, ref) ∈ s.found ∨ a = .findEvidence caseId ref ∧ ∃ c, s.db.case? caseId = some c ∧ s.db.finds c ref = true := by
  have commit : ∀ r : Except PaymentRequests.Failure Db, (s.commit r).found = s.found := by
    intro r
    cases r <;> rfl
  cases a with
  | findEvidence id x =>
    simp only [step] at h
    split at h
    · rename_i hany
      rcases List.mem_cons.mp h with heq | h
      · obtain ⟨rfl, rfl⟩ := Prod.mk.inj heq
        obtain ⟨c, hc, hf⟩ := (Option.any_eq_true _ _).mp hany
        exact .inr ⟨rfl, c, hc, (of_decide_eq_true hf).2⟩
      · exact .inl h
    · exact .inl h
  | record r =>
    simp only [step, commit] at h
    exact .inl h
  | openCase d id =>
    simp only [step, commit] at h
    exact .inl h
  | resolveOpen id x =>
    simp only [step] at h
    split at h
    · rw [commit] at h
      exact .inl h
    · exact .inl h
  | resolve id kind =>
    simp only [step] at h
    split at h
    · exact .inl h
    · rw [commit] at h
      exact .inl h
  | state l => exact .inl h
  | readStated _ _ | discover _ =>
    simp only [step] at h
    split at h <;> exact .inl h
  | recordStated _ _ _ | readEvidence _ _ | check _ _ | classify _ _ _ =>
    simp only [step] at h
    split at h
    · first | exact .inl h | (split at h <;> exact .inl h)
    · first | exact .inl h | (split at h <;> exact .inl h)

theorem step_resolutions (he : Evidenced s.db) (a : Action) : (step s a).db.resolutions = s.db.resolutions ∨
    ∃ x c, s.db.case? x.caseId = some c ∧ (∀ r ∈ s.db.resolutions, r.caseId ≠ x.caseId) ∧
      (step s a).db.resolutions = s.db.resolutions ++ [x] ∧ ∀ id, x.kind = .refund_completed id → (x.caseId, .refund id) ∈ s.found := by
  have commit : ∀ r : Except PaymentRequests.Failure Db, (∀ db, r = .ok db → Stays s.db db) →
      (s.commit r).db.resolutions = s.db.resolutions := by
    intro r hr
    cases r with
    | error e => rfl
    | ok db => exact (hr db rfl).resolutions
  have resolves : ∀ id kind, (∀ r, kind = .refund_completed r → (id, .refund r) ∈ s.found) →
      (s.commit ((Reconciliation.resolve s.db id kind).map Prod.fst)).db.resolutions = s.db.resolutions ∨
      ∃ x c, s.db.case? x.caseId = some c ∧ (∀ r ∈ s.db.resolutions, r.caseId ≠ x.caseId) ∧
        (s.commit ((Reconciliation.resolve s.db id kind).map Prod.fst)).db.resolutions = s.db.resolutions ++ [x] ∧
        ∀ id, x.kind = .refund_completed id → (x.caseId, .refund id) ∈ s.found := by
    intro id kind hk
    cases hr : Reconciliation.resolve s.db id kind with
    | error e => exact .inl rfl
    | ok p =>
      obtain ⟨db, b⟩ := p
      obtain ⟨c, hc, -, ⟨rfl, -⟩ | ⟨hn, rfl⟩⟩ := resolve_ok hr
      · exact .inl rfl
      · exact .inr ⟨⟨id, kind⟩, c, hc, hn, rfl, hk⟩
  cases a with
  | record r => exact .inl (commit _ fun db h => record_later he h)
  | state l => exact .inl rfl
  | readStated _ _ | discover _ | findEvidence _ _ =>
    simp only [step]
    split <;> exact .inl rfl
  | readEvidence _ _ | check _ _ =>
    simp only [step]
    split
    · first | exact .inl rfl | (split <;> exact .inl rfl)
    · first | exact .inl rfl | (split <;> exact .inl rfl)
  | recordStated l evidence fresh =>
    simp only [step]
    split
    · split
      · rename_i h
        exact .inl (stated_later he h).resolutions
      · exact .inl rfl
    · exact .inl rfl
  | classify id evidence fresh =>
    simp only [step]
    split
    · split
      · rename_i h
        exact .inl (classifyLocked_later he h).resolutions
      · exact .inl rfl
    · exact .inl rfl
  | openCase d id =>
    refine .inl (commit _ fun db h => ?_)
    obtain ⟨o, h⟩ := map_fst_ok h
    exact discover_later he h
  | resolveOpen id ref =>
    simp only [step]
    split
    · rename_i hf
      refine resolves id ref.kind fun r hr => ?_
      cases ref <;> cases hr
      exact hf
    · exact .inl rfl
  | resolve id kind =>
    simp only [step]
    split
    · exact .inl rfl
    · rename_i hk
      exact resolves id kind fun r hr => absurd hr (hk r)

theorem step_reconciled (h : Reconciled s) (a : Action) : Reconciled (step s a) := by
  obtain ⟨hl, he⟩ := (step_transaction s a).later h.evidenced
  refine ⟨he, fun caseId ref hf => ?_, ?_⟩
  · obtain ⟨c, hc, hs⟩ : ∃ c, s.db.case? caseId = some c ∧ s.db.supports c ref.kind = true := by
      rcases step_found hf with hf | ⟨-, c, hc, hfinds⟩
      · exact h.found caseId ref hf
      · exact ⟨c, hc, finds_supports h.evidenced (h.evidenced.case c (List.mem_of_find?_eq_some hc)) hfinds⟩
    exact ⟨c, hl.cases _ c hc, supports_later hl hs⟩
  · rcases step_resolutions h.evidenced a with heq | ⟨x, c, -, hn, heq, -⟩
    · rw [heq]
      exact h.once
    · rw [heq]
      exact nodup_append_row h.once hn

theorem step_sound {a : Action} (h : Sound s) (ha : s.clear a) : Sound (step s a) := by
  obtain ⟨hl, -⟩ := (step_transaction s a).later h.evidenced
  have same : ∀ {id : Uuid} {c c' : ReconciliationCase}, s.db.case? id = some c → (step s a).db.case? id = some c' → c' = c := by
    intro id c c' hc hc'
    have := hl.cases id c hc
    rw [this] at hc'
    exact (Option.some.inj hc').symm
  refine ⟨step_reconciled h.toReconciled a, fun caseId id hf c hc hm => ?_, fun x hx => ?_⟩
  · rcases step_found hf with hf | ⟨rfl, c', hc', hfinds⟩
    · obtain ⟨c', hc', -⟩ := h.found caseId _ hf
      cases same hc' hc
      exact hl.returned (h.returned caseId id hf c hc' hm)
    · cases same hc' hc
      exact hl.returned (finds_returned h.evidenced (h.evidenced.case c (List.mem_of_find?_eq_some hc')) (ha c hc') hfinds hm)
  · rcases step_resolutions h.evidenced a with heq | ⟨y, c, hc, -, heq, hfound⟩
    · rw [heq] at hx
      obtain ⟨c, hc, hr⟩ := h.resolved x hx
      exact ⟨c, hl.cases _ c hc, fun id hk hm => hl.returned (hr id hk hm)⟩
    · rw [heq] at hx
      rcases mem_append_row hx with hx | rfl
      · obtain ⟨c, hc, hr⟩ := h.resolved x hx
        exact ⟨c, hl.cases _ c hc, fun id hk hm => hl.returned (hr id hk hm)⟩
      · exact ⟨c, hl.cases _ c hc, fun id hk hm => hl.returned (h.returned _ id (hfound id hk) c hc hm)⟩

/-! ## Runs -/

theorem init_sound : Sound init := by
  refine ⟨⟨init_evidenced, fun _ _ h => (List.not_mem_nil h).elim, ?_⟩, fun _ _ h => (List.not_mem_nil h).elim,
    fun x hx => (List.not_mem_nil hx).elim⟩
  simp [init, Db.empty]

theorem run_append (s : Sys) (as bs : List Action) : run s (as ++ bs) = run (run s as) bs := List.foldl_append

theorem run_reconciled (actions : List Action) : Reconciled (run init actions) :=
  List.foldlRecOn actions step init_sound.toReconciled fun _ h a _ => step_reconciled h a

theorem run_resolutions (h : Reconciled s) (actions : List Action) : s.db.resolutions <+: (run s actions).db.resolutions := by
  induction actions generalizing s with
  | nil => exact List.prefix_refl _
  | cons a actions ih =>
    refine List.IsPrefix.trans ?_ (ih (step_reconciled h a))
    rcases step_resolutions h.evidenced a with heq | ⟨x, c, -, -, heq, -⟩
    · exact ⟨[], by rw [heq, List.append_nil]⟩
    · rw [heq]
      exact List.prefix_append _ _

theorem unclear_unsound (h : Reconciled s) (hc : s.db.case? c.id = some c)
    (hopen : ∀ x ∈ s.db.resolutions, x.caseId ≠ c.id) (hclear : s.db.clear c = false) :
    ∃ id, ¬ (run s [.findEvidence c.id (.refund id), .resolveOpen c.id (.refund id)]).db.resolvedSoundly := by
  have hs := h.evidenced.case c (List.mem_of_find?_eq_some hc)
  obtain ⟨id, hfinds, hm, hnot⟩ := finds_unreturned h.evidenced hs hclear
  refine ⟨id, fun hsound => ?_⟩
  have hfind : step s (.findEvidence c.id (.refund id)) = { s with found := (c.id, .refund id) :: s.found } := by
    simp only [step, hc, Option.any_some]
    rw [if_pos]
    exact decide_eq_true ⟨by simpa using hopen, hfinds⟩
  have hresolve : Reconciliation.resolve s.db c.id (.refund_completed id) =
      .ok ({ s.db with resolutions := s.db.resolutions ++ [⟨c.id, .refund_completed id⟩] }, true) := by
    unfold Reconciliation.resolve
    simp only [hc]
    have hsupports : s.db.supports c (.refund_completed id) = true := finds_supports h.evidenced hs hfinds
    rw [if_neg (not_not.mpr hsupports), if_neg]
    simpa using hopen
  have hdb : (run s [.findEvidence c.id (.refund id), .resolveOpen c.id (.refund id)]).db =
      { s.db with resolutions := s.db.resolutions ++ [⟨c.id, .refund_completed id⟩] } := by
    simp only [run, List.foldl_cons, List.foldl_nil, hfind]
    simp only [step, List.mem_cons, true_or, if_true, Ref.kind, hresolve]
    rfl
  rw [hdb] at hsound
  obtain ⟨c', hc', hr⟩ := hsound ⟨c.id, .refund_completed id⟩ (List.mem_append_right _ List.mem_cons_self)
  have hc'' : s.db.case? c.id = some c' := hc'
  rw [hc] at hc''
  cases hc''
  obtain ⟨r, hmem, hid, hb⟩ := hr id rfl hm
  exact hnot r hmem hid hb

/-! ## The resolutions of a run -/

structure Resolves (actions : List Action) : Prop where
  returned : Along step Sys.clear init actions → (run init actions).db.resolvedSoundly
  unclear : ∀ c, (run init actions).db.case? c.id = some c → (∀ x ∈ (run init actions).db.resolutions, x.caseId ≠ c.id) →
    (run init actions).db.clear c = false →
      ∃ id, ¬ (run init (actions ++ [.findEvidence c.id (.refund id), .resolveOpen c.id (.refund id)])).db.resolvedSoundly
  once : ((run init actions).db.resolutions.map Resolution.caseId).Nodup
  kept : ∀ more, (run init actions).db.resolutions <+: (run init (actions ++ more)).db.resolutions
  accepted : ∀ caseId ref, (caseId, ref) ∈ (run init actions).found →
    ∃ p, Reconciliation.resolve (run init actions).db caseId ref.kind = .ok p

/-- **The resolution of a case.** -/
theorem resolution_sound (actions : List Action) : Resolves actions where
  returned h := (Along.invariant (I := Sound) (fun _ _ hs ha => step_sound hs ha) actions init_sound h).resolved
  unclear c hc hopen hclear := by
    obtain ⟨id, h⟩ := unclear_unsound (run_reconciled actions) hc hopen hclear
    exact ⟨id, by rwa [run_append]⟩
  once := (run_reconciled actions).once
  kept more := by
    rw [run_append]
    exact run_resolutions (run_reconciled actions) more
  accepted caseId ref hf := by
    obtain ⟨c, hc, hs⟩ := (run_reconciled actions).found caseId ref hf
    unfold Reconciliation.resolve
    simp only [hc, hs, not_true_eq_false, if_false]
    split
    · exact ⟨_, rfl⟩
    · exact ⟨_, rfl⟩

def duplicateReturned : List Action :=
  [.record (.invoice ⟨1, 100, "USD", .company, 6, some 7, [3], none⟩), .record (.request ⟨2, none, 1, 100, "USD", .created⟩),
   .record (.requestStatus 2 .sending none), .record (.requestStatus 2 .requested (some 9)), .record (.success 2 70),
   .openCase (.unroutedSettlement 2) 80,
   .record (.refundCase ⟨90, 9, 2, 1, none, .capture_specific, 6, 3, some 7, some (.duplicate_capture, 31), 100, "USD", .open⟩),
   .record (.refundCaseStatus 90 .completed), .findEvidence 80 (.refund 90), .resolveOpen 80 (.refund 90)]

theorem unrouted_resolved_by_duplicate : (run init duplicateReturned).db.resolutions = [⟨80, .refund_completed 90⟩] ∧
    ¬ (run init duplicateReturned).db.resolvedSoundly := by
  refine ⟨by decide, fun h => ?_⟩
  obtain ⟨c, hc, hr⟩ := h ⟨80, .refund_completed 90⟩ (by decide)
  have hcase : (run init duplicateReturned).db.case? 80 =
      some ⟨80, .unrouted_settlement, 2, 6, some 3, some 7, some 9, some 2, none, some 100, some "USD", none⟩ := by decide
  cases hcase.symm.trans hc
  obtain ⟨r, hm, -, -, m, hmove, hb⟩ := hr 90 rfl rfl
  have hrefunds : (run init duplicateReturned).db.refundCases =
      [⟨90, 9, 2, 1, none, .capture_specific, 6, 3, some 7, some (.duplicate_capture, 31), 100, "USD", .completed⟩] := by decide
  rw [hrefunds] at hm
  cases List.mem_singleton.mp hm
  have hsettling : (run init duplicateReturned).db.movement
      ⟨80, .unrouted_settlement, 2, 6, some 3, some 7, some 9, some 2, none, some 100, some "USD", none⟩ = some (.settling 9) := by decide
  cases hsettling.symm.trans hmove
  cases hb

end NawaraCore.Reconciliation
