import Mathlib
import NawaraCore.Loss.EffectSound
import NawaraCore.Loss.RecoveryScan
import NawaraCore.Refund.RelaySound

/-!
# What a pass of the workers reaches

The recovery worker and the relay reconciler take the oldest fifty items that are not decided
yet, so an item is examined in the first pass or, behind fifty that wait, never.
-/

namespace NawaraCore

/-! ## The recovery worker -/

variable {f : VisitFacts} {evidence : Option RefundEvidenceVerdict}

namespace Losses

variable {db' : Db}

section
variable {env : PassEnv} {db : Db} {d : Uuid}

structure Decides (d : Uuid) (db db' : Db) : Prop where
  losses : db'.losses = db.losses
  effects : db'.effects = db.effects
  obligations : ∀ o ∈ db'.obligations, o ∈ db.obligations ∨ o.disputeId = d
  reviews : ∀ r ∈ db'.reviews, r ∈ db.reviews ∨ r.disputeId = d

theorem Decides.refl (d : Uuid) (db : Db) : Decides d db db := ⟨rfl, rfl, fun _ ho => .inl ho, fun _ hr => .inl hr⟩

theorem recordCaptureLoss_decides {placed : Db} (h : recordCaptureLoss db d = .ok placed) : Decides d db placed := by
  rcases recordCaptureLoss_cases h with rfl | ⟨l, -, c, -, -, rfl⟩
  · exact .refl _ _
  · exact ⟨rfl, rfl, fun _ ho => .inl ho, fun _ hr => .inl hr⟩

theorem decideVisit_decides {o : VisitOutcome}
    (h : decideVisit db f evidence = .ok (db', o)) : Decides f.disputeId db db' := by
  rcases decideVisit_cases h with rfl | ⟨cap, reason, -, -, -, -, hi⟩ | ⟨companyId, hi⟩
  · exact .refl _ _
  · obtain ⟨-, rfl⟩ := insertReview_ok hi
    refine ⟨rfl, rfl, fun _ ho => .inl ho, fun r hr => ?_⟩
    rcases mem_append_row hr with hr | hr
    · exact .inl hr
    · exact .inr (by rw [hr])
  · obtain ⟨-, -, -, rfl⟩ := insertObligation_ok hi
    refine ⟨rfl, rfl, fun x hx => ?_, fun _ hr => .inl hr⟩
    rcases mem_append_row hx with hx | hx
    · exact .inl hx
    · exact .inr (by rw [hx])

theorem visitFacts_dispute (h : visitFacts db d = some f) : f.disputeId = d := by
  unfold visitFacts at h
  simp only [Option.bind_eq_bind, Option.bind_eq_some_iff, Option.some.injEq] at h
  obtain ⟨l, -, e, -, p, -, s, -, a, -, r, -, pr, -, rfl⟩ := h
  rfl

theorem visit_decides : Decides d db (env.visit db d).1 := by
  unfold PassEnv.visit
  cases hf : visitFacts db d with
  | none => exact .refl _ _
  | some f =>
    cases hr : recordCaptureLoss db d with
    | error e => exact .refl _ _
    | ok placed =>
      have hp := recordCaptureLoss_decides hr
      dsimp only
      split
      · exact hp
      · rename_i decided outcome hd
        have hd := decideVisit_decides hd
        rw [visitFacts_dispute hf] at hd
        refine ⟨hd.losses.trans hp.losses, hd.effects.trans hp.effects, fun o ho => ?_, fun r hr => ?_⟩
        · exact (hd.obligations o ho).elim (hp.obligations o) .inr
        · exact (hd.reviews r hr).elim (hp.reviews r) .inr

theorem Decides.undecided (h : Decides d db db') {x : Uuid} (hx : x ∈ db.undecided) (hne : x ≠ d) : x ∈ db'.undecided := by
  obtain ⟨l, hl, rfl⟩ := List.mem_map.mp hx
  obtain ⟨hl, hc⟩ := List.mem_filter.mp hl
  obtain ⟨he, ho, hr⟩ := of_decide_eq_true hc
  refine List.mem_map.mpr ⟨l, List.mem_filter.mpr ⟨h.losses ▸ hl, decide_eq_true ⟨h.effects ▸ he, fun hany => ?_, fun hany => ?_⟩⟩, rfl⟩
  · obtain ⟨o, hom, hod⟩ := List.any_eq_true.mp hany
    rcases h.obligations o hom with hom | hd
    · exact ho (List.any_eq_true.mpr ⟨o, hom, hod⟩)
    · exact hne ((of_decide_eq_true hod).symm.trans hd)
  · obtain ⟨r, hrm, hrd⟩ := List.any_eq_true.mp hany
    rcases h.reviews r hrm with hrm | hd
    · exact hr (List.any_eq_true.mpr ⟨r, hrm, hrd⟩)
    · exact hne ((of_decide_eq_true hrd).symm.trans hd)

def Keyed (db : Db) : Prop := (db.losses.map DisputeLoss.disputeId).Nodup

theorem recovery_scan (env : PassEnv) : BatchScan env.order Db.undecided (fun db d => (env.visit db d).1) Keyed where
  step db d h := by
    unfold Keyed
    rw [visit_decides.losses]
    exact h
  keys db h := by
    have hu : db.undecided.Nodup := h.sublist (List.filter_sublist.map _)
    exact hu.map_on fun a _ b _ he => (Prod.mk.inj (toLex.injective he)).2
  others db d x _ hx hne := visit_decides.undecided hx hne

theorem drainOnce_fst (env : PassEnv) (db : Db) :
    (env.drainOnce db).1 = pass env.order Db.undecided (fun db d => (env.visit db d).1) BATCH db := by
  unfold PassEnv.drainOnce pass
  generalize batch env.order Db.undecided BATCH db = l
  generalize (⟨0, 0, 0, 0⟩ : Tally) = t
  induction l generalizing db t with
  | nil => rfl
  | cons d l ih => exact ih _ _

end

end Losses

namespace RefundRelays

section
variable {env : PassEnv} {db : Db} {d : Uuid}

def Keyed (db : Db) : Prop := (db.cases.map RefundCase.id).Nodup

theorem completion_case {c : RefundCase} {z : PaymentRefundCompletion} (h : env.completion c = some z) : z.refundCaseId = c.id := by
  unfold PassEnv.completion at h
  obtain ⟨authorizations, -, h⟩ := Option.bind_eq_some_iff.mp h
  obtain ⟨x, -, h⟩ := List.exists_of_findSome?_eq_some h
  split at h
  · obtain ⟨t, -, rfl⟩ := Option.map_eq_some_iff.mp h
    rfl
  · cases h

theorem visit_cases : (env.visit db d).1 = db ∨ ∃ y : RefundCase, y.id = d ∧ (env.visit db d).1.relays = db.relays ∧
    (env.visit db d).1.cases = replaceRow RefundCase.id y db.cases := by
  unfold PassEnv.visit
  cases hz : (db.case? d).bind env.completion with
  | none => exact .inl rfl
  | some z =>
    obtain ⟨c, hc, hz⟩ := Option.bind_eq_some_iff.mp hz
    have hid : z.refundCaseId = d := (completion_case hz).trans (case?_some hc).2
    rw [← hid]
    dsimp only
    rcases complete_cases db z with he | ⟨-, -, -, -, y, hy, -, completions, he⟩
    · exact .inl he
    · rw [he]
      exact .inr ⟨y, hy, rfl, rfl⟩

theorem case_scan (env : PassEnv) : BatchScan env.order Db.awaiting (fun db d => (env.visit db d).1) Keyed where
  step db d h := by
    unfold Keyed
    rcases (@visit_cases env db d) with he | ⟨y, -, -, hc⟩
    · rw [he]
      exact h
    · rw [hc, map_replaceRow fun _ _ he => he]
      exact h
  keys db h := by
    have hu : db.awaiting.Nodup := h.sublist (List.filter_sublist.map _)
    exact hu.map_on fun a _ b _ he => (Prod.mk.inj (toLex.injective he)).2
  others db d x _ hx hne := by
    rcases (@visit_cases env db d) with he | ⟨y, hy, hr, hc⟩
    · rw [he]
      exact hx
    · obtain ⟨c, hcm, rfl⟩ := List.mem_map.mp hx
      obtain ⟨hcm, hcond⟩ := List.mem_filter.mp hcm
      refine List.mem_map.mpr ⟨c, List.mem_filter.mpr ⟨?_, ?_⟩, rfl⟩
      · rw [hc]
        exact replaceRow_other hcm (by rw [hy]; exact hne)
      · rw [hr]
        exact hcond

theorem completeFromPayment_fst (env : PassEnv) (db : Db) :
    (env.completeFromPayment db).1 = pass env.order Db.awaiting (fun db d => (env.visit db d).1) BATCH_SIZE db := by
  unfold PassEnv.completeFromPayment pass
  generalize batch env.order Db.awaiting BATCH_SIZE db = l
  generalize 0 = n
  induction l generalizing db n with
  | nil => rfl
  | cons d l ih => exact ih _ _

end

end RefundRelays

/-! ## Head-of-line blocking -/

namespace Losses

def PassEnv.examined (env : PassEnv) (db : Db) (i : Nat) : List Uuid :=
  batch env.order Db.undecided BATCH ((fun db => (env.drainOnce db).1)^[i] db)

def PassEnv.Waits (env : PassEnv) (db : Db) (d : Uuid) : Prop :=
  NawaraCore.Waits env.order Db.undecided (fun db d => (env.visit db d).1) BATCH db d

end Losses

namespace RefundRelays

def PassEnv.examined (env : PassEnv) (db : Db) (i : Nat) : List Uuid :=
  batch env.order Db.awaiting BATCH_SIZE ((fun db => (env.completeFromPayment db).1)^[i] db)

def PassEnv.Waits (env : PassEnv) (db : Db) (d : Uuid) : Prop :=
  NawaraCore.Waits env.order Db.awaiting (fun db d => (env.visit db d).1) BATCH_SIZE db d

end RefundRelays

namespace Losses

section
variable {env : PassEnv} {db : Db} {waiting : List Uuid} {d : Uuid}

theorem drainOnce_pass (env : PassEnv) :
    (fun db => (env.drainOnce db).1) = pass env.order Db.undecided (fun db d => (env.visit db d).1) BATCH :=
  funext (drainOnce_fst env)

theorem examined_iff (hk : Keyed db) (hn : waiting.Nodup) (hp : waiting ⊆ db.undecided) (hw : ∀ u ∈ waiting, env.Waits db u)
    (hx : ∀ u ∈ waiting, env.order u < env.order d) (hd : d ∈ db.undecided) :
    (∃ i < (waiting.length + 1) ⌈/⌉ BATCH, d ∈ env.examined db i) ↔
      (db.undecided.filter fun u => env.order u < env.order d).length < BATCH := by
  unfold PassEnv.examined
  rw [drainOnce_pass]
  exact (recovery_scan env).examined_iff hk hn hp hw hx (by decide) hd

theorem blocked (hk : Keyed db) (hn : waiting.Nodup) (hp : waiting ⊆ db.undecided) (hw : ∀ u ∈ waiting, env.Waits db u)
    (hx : ∀ u ∈ waiting, env.order u < env.order d) (hlen : BATCH ≤ waiting.length) (i : Nat) : d ∉ env.examined db i := by
  unfold PassEnv.examined
  rw [drainOnce_pass]
  exact (recovery_scan env).blocked hk hn hp hw hx hlen i

theorem decideVisit_waiting
    (h : decideVisit db f evidence = .ok (db', .waiting)) : db' = db := by
  unfold decideVisit at h
  obtain ⟨-, h⟩ := passed h nofun
  split at h
  · cases h
  · dsimp only at h
    split at h
    · obtain ⟨x, -, hx⟩ := map_eq_ok.mp h
      cases hx
    · split at h
      · cases h
      · split at h
        · cases h
          rfl
        · split at h <;> cases h
          rfl

theorem recordCaptureLoss_placed {placed : Db} (hcap : db.caps.any fun c => c.disputeId = d) (h : recordCaptureLoss db d = .ok placed) :
    placed = db := by
  unfold recordCaptureLoss at h
  split at h
  · cases h
  · split at h
    · cases h
      rfl
    · cases h
    · rw [if_pos hcap] at h
      cases h
      rfl

theorem visit_waiting (hcap : db.caps.any fun c => c.disputeId = d) (h : (env.visit db d).2 = .ok .waiting) : (env.visit db d).1 = db := by
  unfold PassEnv.visit at h ⊢
  cases hf : visitFacts db d with
  | none => rfl
  | some f =>
    simp only [hf] at h ⊢
    cases hr : recordCaptureLoss db d with
    | error e => rfl
    | ok placed =>
      have hp := recordCaptureLoss_placed hcap hr
      simp only [hr] at h ⊢
      split at h
      · cases h
      · rename_i decided outcome hd
        simp only [Except.ok.injEq] at h
        rw [h] at hd
        exact (decideVisit_waiting hd).trans hp

theorem waits_of (h : ∀ u ∈ batch env.order Db.undecided BATCH db, (db.caps.any fun c => c.disputeId = u) ∧ (env.visit db u).2 = .ok .waiting)
    (hd : d ∈ db.undecided) : env.Waits db d :=
  Waits.of_fixed (fun u hu => visit_waiting (h u hu).1 (h u hu).2) hd

end

end Losses

namespace RefundRelays

section
variable {env : PassEnv} {db : Db} {waiting : List Uuid} {d : Uuid}

theorem completeFromPayment_pass (env : PassEnv) :
    (fun db => (env.completeFromPayment db).1) = pass env.order Db.awaiting (fun db d => (env.visit db d).1) BATCH_SIZE :=
  funext (completeFromPayment_fst env)

theorem examined_iff (hk : Keyed db) (hn : waiting.Nodup) (hp : waiting ⊆ db.awaiting) (hw : ∀ u ∈ waiting, env.Waits db u)
    (hx : ∀ u ∈ waiting, env.order u < env.order d) (hd : d ∈ db.awaiting) :
    (∃ i < (waiting.length + 1) ⌈/⌉ BATCH_SIZE, d ∈ env.examined db i) ↔
      (db.awaiting.filter fun u => env.order u < env.order d).length < BATCH_SIZE := by
  unfold PassEnv.examined
  rw [completeFromPayment_pass]
  exact (case_scan env).examined_iff hk hn hp hw hx (by decide) hd

theorem blocked (hk : Keyed db) (hn : waiting.Nodup) (hp : waiting ⊆ db.awaiting) (hw : ∀ u ∈ waiting, env.Waits db u)
    (hx : ∀ u ∈ waiting, env.order u < env.order d) (hlen : BATCH_SIZE ≤ waiting.length) (i : Nat) : d ∉ env.examined db i := by
  unfold PassEnv.examined
  rw [completeFromPayment_pass]
  exact (case_scan env).blocked hk hn hp hw hx hlen i

end

end RefundRelays

/-- **What the scans reach.** An item behind others that wait is examined in the passes they would fill exactly when fewer than a
batch of items that are not decided yet are older; behind a whole batch that waits it is never examined. -/
theorem scans_examined (waiting : List Nat) (d : Nat) (hn : waiting.Nodup) :
    (∀ (env : Losses.PassEnv) (db : Losses.Db), Losses.Keyed db → waiting ⊆ db.undecided → (∀ u ∈ waiting, env.Waits db u) → (∀ u ∈ waiting, env.order u < env.order d) → d ∈ db.undecided →
      ((∃ i < (waiting.length + 1) ⌈/⌉ Losses.BATCH, d ∈ env.examined db i) ↔
          (db.undecided.filter fun u => env.order u < env.order d).length < Losses.BATCH) ∧
        (Losses.BATCH ≤ waiting.length → ∀ i, d ∉ env.examined db i)) ∧
    (∀ (env : RefundRelays.PassEnv) (db : RefundRelays.Db), RefundRelays.Keyed db → waiting ⊆ db.awaiting → (∀ u ∈ waiting, env.Waits db u) → (∀ u ∈ waiting, env.order u < env.order d) →
      d ∈ db.awaiting →
      ((∃ i < (waiting.length + 1) ⌈/⌉ RefundRelays.BATCH_SIZE, d ∈ env.examined db i) ↔
          (db.awaiting.filter fun u => env.order u < env.order d).length < RefundRelays.BATCH_SIZE) ∧
        (RefundRelays.BATCH_SIZE ≤ waiting.length → ∀ i, d ∉ env.examined db i)) :=
  ⟨fun _ _ hk hp hw hx hd => ⟨Losses.examined_iff hk hn hp hw hx hd, fun hlen => Losses.blocked hk hn hp hw hx hlen⟩,
    fun _ _ hk hp hw hx hd => ⟨RefundRelays.examined_iff hk hn hp hw hx hd, fun hlen => RefundRelays.blocked hk hn hp hw hx hlen⟩⟩

/-! ### Fifty that wait -/

def assistedLosses (n : Nat) : Losses.Db :=
  { requests := (List.range n).map fun i => ⟨200 + i, some (100 + i), 10, "EUR", some 7⟩
    lateSuccesses := []
    purchases := (List.range n).map fun i => ⟨500 + i, .assisted_settlement, 200 + i, none, some (600 + i)⟩
    assistance_request := fun _ => some ⟨8, 9, 10, "EUR"⟩
    billing_platform := fun _ => some 7
    losses := (List.range n).map fun i => ⟨i, 100 + i, 200 + i, "EUR", 300 + i, 10, "EUR", .settling_capture (some (400 + i)), false⟩
    caps := (List.range n).map fun i => ⟨i, .settling (100 + i), false, 10, "EUR", 10, true, some 0, true, true⟩
    effects := (List.range n).map fun i => ⟨i, .none .assisted_purchase_preserved, some (500 + i)⟩
    attempts := fun _ => none
    reversals := []
    causes := []
    refundCases := []
    relays := []
    recoveryPayments := []
    obligations := []
    reviews := []
    writeOffs := []
    overlapCases := [] }

def assistedEnv (n : Nat) : Losses.PassEnv :=
  { recordedAt := fun d => d
    payment := fun p => .answer (some ⟨[], [], some (if p < 100 + n then [none] else [])⟩) }

def relayedCases (n : Nat) : RefundRelays.Db :=
  { cases := (List.range n).map fun i => ⟨i, 100 + i, 10, "EUR", .open, none⟩
    relays := (List.range n).map fun i => ⟨200 + i, i, 100 + i, none, none, none⟩
    completions := [] }

def relayedEnv (n : Nat) : RefundRelays.PassEnv :=
  { openedAt := fun d => d
    refunds := fun p => some (if p = 100 + n then [⟨300, 200 + n, n, 10, "EUR", some 5⟩] else []) }

theorem assistedLosses_waits : ∀ u ∈ List.range 50, (assistedEnv 50).Waits (assistedLosses 51) u := by
  have hw : ∀ d ∈ batch (assistedEnv 50).order Losses.Db.undecided Losses.BATCH (assistedLosses 51),
      ((assistedLosses 51).caps.any fun c => c.disputeId = d) ∧ ((assistedEnv 50).visit (assistedLosses 51) d).2 = .ok .waiting := by
    decide +kernel
  have hund : ∀ d ∈ List.range 50, d ∈ (assistedLosses 51).undecided := by decide +kernel
  exact fun u hu => Losses.waits_of hw (hund u hu)

theorem relayedCases_waits : ∀ u ∈ List.range 50, (relayedEnv 50).Waits (relayedCases 51) u := by
  have hw : ∀ d ∈ batch (relayedEnv 50).order RefundRelays.Db.awaiting RefundRelays.BATCH_SIZE (relayedCases 51),
      ((relayedEnv 50).visit (relayedCases 51) d).1 = relayedCases 51 := by decide +kernel
  have hund : ∀ d ∈ List.range 50, d ∈ (relayedCases 51).awaiting := by decide +kernel
  exact fun u hu => Waits.of_fixed hw (hund u hu)

theorem scans_blocked :
    (¬ ∀ (env : Losses.PassEnv) (db : Losses.Db) (waiting : List Losses.Uuid) (d : Losses.Uuid), Losses.Keyed db → waiting.Nodup →
      waiting ⊆ db.undecided → (∀ u ∈ waiting, env.Waits db u) → (∀ u ∈ waiting, env.order u < env.order d) → d ∈ db.undecided →
      ∃ i < (waiting.length + 1) ⌈/⌉ Losses.BATCH, d ∈ env.examined db i) ∧
    ¬ ∀ (env : RefundRelays.PassEnv) (db : RefundRelays.Db) (waiting : List RefundRelays.Uuid) (d : RefundRelays.Uuid), RefundRelays.Keyed db →
      waiting.Nodup → waiting ⊆ db.awaiting → (∀ u ∈ waiting, env.Waits db u) → (∀ u ∈ waiting, env.order u < env.order d) →
      d ∈ db.awaiting → ∃ i < (waiting.length + 1) ⌈/⌉ RefundRelays.BATCH_SIZE, d ∈ env.examined db i := by
  refine ⟨fun h => ?_, fun h => ?_⟩
  · have hk : Losses.Keyed (assistedLosses 51) := by
      unfold Losses.Keyed
      decide +kernel
    have hp : List.range 50 ⊆ (assistedLosses 51).undecided := by decide +kernel
    have hx : ∀ u ∈ List.range 50, (assistedEnv 50).order u < (assistedEnv 50).order 50 := by decide +kernel
    have hd : 50 ∈ (assistedLosses 51).undecided := by decide +kernel
    obtain ⟨i, -, hi⟩ := h (assistedEnv 50) (assistedLosses 51) (List.range 50) 50 hk List.nodup_range hp assistedLosses_waits hx hd
    exact Losses.blocked hk List.nodup_range hp assistedLosses_waits hx (by decide) i hi
  · have hk : RefundRelays.Keyed (relayedCases 51) := by
      unfold RefundRelays.Keyed
      decide +kernel
    have hp : List.range 50 ⊆ (relayedCases 51).awaiting := by decide +kernel
    have hx : ∀ u ∈ List.range 50, (relayedEnv 50).order u < (relayedEnv 50).order 50 := by decide +kernel
    have hd : 50 ∈ (relayedCases 51).awaiting := by decide +kernel
    obtain ⟨i, -, hi⟩ := h (relayedEnv 50) (relayedCases 51) (List.range 50) 50 hk List.nodup_range hp relayedCases_waits hx hd
    exact RefundRelays.blocked hk List.nodup_range hp relayedCases_waits hx (by decide) i hi

theorem scans_examined_second :
    (∃ i < 2 ⌈/⌉ Losses.BATCH, 1 ∈ (assistedEnv 2).examined (assistedLosses 2) i) ∧
      ∃ i < 2 ⌈/⌉ RefundRelays.BATCH_SIZE, 1 ∈ (relayedEnv 2).examined (relayedCases 2) i := by
  have hw : ∀ d ∈ batch (assistedEnv 2).order Losses.Db.undecided Losses.BATCH (assistedLosses 2),
      ((assistedLosses 2).caps.any fun c => c.disputeId = d) ∧ ((assistedEnv 2).visit (assistedLosses 2) d).2 = .ok .waiting := by
    decide +kernel
  have hv : ∀ d ∈ batch (relayedEnv 2).order RefundRelays.Db.awaiting RefundRelays.BATCH_SIZE (relayedCases 2),
      ((relayedEnv 2).visit (relayedCases 2) d).1 = relayedCases 2 := by decide +kernel
  have hl := (scans_examined [0] 1 (by decide)).1 (assistedEnv 2) (assistedLosses 2) (by unfold Losses.Keyed; decide +kernel) (by decide +kernel)
    (fun u hu => Losses.waits_of hw (List.mem_singleton.mp hu ▸ (by decide +kernel))) (by decide +kernel)
    (by decide +kernel)
  have hc := (scans_examined [0] 1 (by decide)).2 (relayedEnv 2) (relayedCases 2) (by unfold RefundRelays.Keyed; decide +kernel) (by decide +kernel)
    (fun u hu => Waits.of_fixed hv (List.mem_singleton.mp hu ▸ (by decide +kernel))) (by decide +kernel)
    (by decide +kernel)
  exact ⟨hl.1.mpr (by decide +kernel), hc.1.mpr (by decide +kernel)⟩

end NawaraCore
