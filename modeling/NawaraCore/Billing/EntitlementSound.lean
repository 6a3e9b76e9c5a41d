import NawaraCore.Billing.CompensationSound
import NawaraCore.Billing.Entitlement
import NawaraCore.Billing.PersonalSound

/-!
# The interval algebra and the two entitlement paths

Both calculations answer with the end of the uninterrupted stretch that holds the instant, so
without holds they agree on every ledger and every instant.
-/

namespace NawaraCore.Entitlements

open HalfOpen FraudHolds PersonalSubscriptions
open Subscriptions (Uuid)

/-- Valid at an instant that is covered, until the first instant after it that is not. -/
structure Answers (covered : Int → Prop) (now : Int) (e : EntitlementAt) : Prop where
  valid : e.valid = true ↔ covered now
  ended : e.expiresAt = none ↔ ¬ covered now
  expires : ∀ t, e.expiresAt = some t → now < t ∧ ¬ covered t ∧ ∀ x, now ≤ x → x < t → covered x

section
variable {covered : Int → Prop} {now : Int} {e f : EntitlementAt}

theorem Answers.unique (he : Answers covered now e) (hf : Answers covered now f) : e = f := by
  obtain ⟨valid, expires⟩ := e
  obtain ⟨valid', expires'⟩ := f
  have hvalid : valid = valid' := Bool.eq_iff_iff.mpr (he.valid.trans hf.valid.symm)
  have hexpires : expires = expires' := by
    cases expires with
    | none => exact (hf.ended.mpr (he.ended.mp rfl)).symm
    | some t =>
      cases expires' with
      | none => exact he.ended.mpr (hf.ended.mp rfl)
      | some u =>
        obtain ⟨ht, hnot, hall⟩ := he.expires t rfl
        obtain ⟨hu, hnot', hall'⟩ := hf.expires u rfl
        rcases lt_trichotomy t u with hlt | heq | hgt
        · exact absurd (hall' t ht.le hlt) hnot
        · rw [heq]
        · exact absurd (hall u hu.le hgt) hnot'
  rw [hvalid, hexpires]

theorem Answers.congr {covered' : Int → Prop} (h : Answers covered now e) (hc : ∀ x, covered x ↔ covered' x) : Answers covered' now e := by
  obtain rfl : covered = covered' := funext fun x => propext (hc x)
  exact h

theorem Answers.invalid (h : ¬ covered now) : Answers covered now ⟨false, none⟩ where
  valid := ⟨nofun, fun hv => absurd hv h⟩
  ended := ⟨fun _ => h, fun _ => rfl⟩
  expires := nofun

theorem Answers.until {t : Int} (hlt : now < t) (hnot : ¬ covered t) (hall : ∀ x, now ≤ x → x < t → covered x) : Answers covered now ⟨true, some t⟩ where
  valid := ⟨fun _ => hall now le_rfl hlt, fun _ => rfl⟩
  ended := ⟨nofun, fun h => absurd (hall now le_rfl hlt) h⟩
  expires := fun u hu => by
    cases hu
    exact ⟨hlt, hnot, hall⟩

end

section
variable {l : List Interval} {i : Interval}

theorem stop_uncovered (hs : Spaced l) (hp : Proper l) (hi : i ∈ l) : ¬ Covers l i.stop := by
  induction l with
  | nil => cases hi
  | cons k l ih =>
    rw [spaced_cons] at hs
    rw [proper_cons] at hp
    rw [covers_cons, not_or]
    rcases List.mem_cons.mp hi with rfl | hi
    · refine ⟨fun h => absurd h.2 (lt_irrefl _), ?_⟩
      rintro ⟨j, hj, h⟩
      exact absurd (hs.1 j hj) (not_lt.mpr h.1)
    · refine ⟨fun h => ?_, ih hs.2 hp.2 hi⟩
      have hlt := hs.1 i hi
      have hproper := hp.2 i hi
      have := h.2
      omega

end

theorem entitlementAt_answers (paid : List Interval) (holds : List HoldWindow) (now : Int) :
    Answers (Covers (effective paid holds)) now (entitlementAt paid holds now) := by
  refine Answers.congr ?_ fun x => merge_covers (effective paid holds) x
  obtain ⟨hp, hs⟩ := merge_spaced (effective paid holds)
  unfold entitlementAt
  split
  · rename_i i hi
    have hmem := List.mem_of_find?_eq_some hi
    have hin := List.find?_some hi
    rw [decide_eq_true_iff] at hin
    refine Answers.until hin.2 (stop_uncovered hs hp hmem) fun x hx hlt => ?_
    exact ⟨i, hmem, hin.1.trans hx, hlt⟩
  · rename_i hn
    refine Answers.invalid ?_
    rintro ⟨i, hi, hx⟩
    exact List.find?_eq_none.mp hn i hi (decide_eq_true hx)

theorem compensationLoop_unheld (runs : List Interval) : compensationLoop [] [] 0 runs = [] := by
  induction runs with
  | nil => rfl
  | cons run rest ih =>
    have hdenied : FraudHolds.length (intersect [run] []) = 0 := by
      rw [length_eq_card, Nat.cast_eq_zero, Finset.card_eq_zero]
      ext x
      simp [intersect_covers]
    unfold compensationLoop
    simp only [hdenied, add_zero, if_true]
    exact ih

theorem effective_unheld (paid : List Interval) (x : Int) : Covers (effective paid []) x ↔ Covers paid x := by
  have hnone : compensation paid [] = [] := compensationLoop_unheld (merge paid)
  rw [effective_covers, hnone]
  simp

/-! ## The plain calculation -/

variable {s : PersonalSpan}

section
variable {spans : List PersonalSpan} {stop now : Int}

structure Ordered (spans : List PersonalSpan) : Prop where
  proper : ∀ s ∈ spans, s.effectiveStart < s.effectiveEnd
  apart : spans.Pairwise fun a b => a.effectiveEnd ≤ b.effectiveStart

def CoversSpan (spans : List PersonalSpan) (x : Int) : Prop := Covers (spans.map spanInterval) x

theorem coversSpan_cons {x : Int} : CoversSpan (s :: spans) x ↔ (s.effectiveStart ≤ x ∧ x < s.effectiveEnd) ∨ CoversSpan spans x :=
  covers_cons (spanInterval s) (spans.map spanInterval) x

theorem Ordered.tail (h : Ordered (s :: spans)) : Ordered spans :=
  ⟨fun t ht => h.proper t (List.mem_cons_of_mem _ ht), (List.pairwise_cons.mp h.apart).2⟩

theorem Ordered.after (h : Ordered (s :: spans)) {x : Int} (hx : CoversSpan spans x) : s.effectiveEnd ≤ x := by
  obtain ⟨i, hi, hin⟩ := hx
  obtain ⟨t, ht, rfl⟩ := List.mem_map.mp hi
  exact ((List.pairwise_cons.mp h.apart).1 t ht).trans hin.1

theorem runEnd_spec (h : Ordered spans) (hafter : ∀ x, CoversSpan spans x → stop ≤ x) :
    stop ≤ runEnd stop spans ∧ ¬ CoversSpan spans (runEnd stop spans) ∧ ∀ x, stop ≤ x → x < runEnd stop spans → CoversSpan spans x := by
  induction spans generalizing stop with
  | nil =>
    refine ⟨le_rfl, fun ⟨i, hi, _⟩ => (by cases hi), fun x hx hlt => absurd hlt (not_lt.mpr hx)⟩
  | cons s rest ih =>
    have hproper := h.proper s List.mem_cons_self
    unfold runEnd
    by_cases hs : s.effectiveStart = stop
    · rw [if_pos hs]
      obtain ⟨hle, hnot, hall⟩ := @ih s.effectiveEnd h.tail fun x hx => h.after hx
      refine ⟨by omega, fun hc => ?_, fun x hx hlt => ?_⟩
      · rcases coversSpan_cons.mp hc with hc | hc
        · exact absurd hc.2 (not_lt.mpr hle)
        · exact hnot hc
      · by_cases hbefore : x < s.effectiveEnd
        · exact coversSpan_cons.mpr (.inl ⟨by omega, hbefore⟩)
        · exact coversSpan_cons.mpr (.inr (hall x (not_lt.mp hbefore) hlt))
    · rw [if_neg hs]
      have hstart : CoversSpan (s :: rest) s.effectiveStart := coversSpan_cons.mpr (.inl ⟨le_rfl, hproper⟩)
      have hlt : stop < s.effectiveStart := lt_of_le_of_ne (hafter _ hstart) (Ne.symm hs)
      refine ⟨le_rfl, fun hc => ?_, fun x hx hlt => absurd hlt (not_lt.mpr hx)⟩
      rcases coversSpan_cons.mp hc with hc | hc
      · exact absurd hc.1 (not_le.mpr hlt)
      · have := h.after hc
        omega

def walk (spans : List PersonalSpan) (now : Int) : EntitlementAt := match spans.dropWhile fun s => !holdsInstant now s with
  | [] => ⟨false, none⟩
  | s :: rest => ⟨true, some (runEnd s.effectiveEnd rest)⟩

theorem walk_answers (h : Ordered spans) : Answers (CoversSpan spans) now (walk spans now) := by
  induction spans with
  | nil => exact Answers.invalid fun ⟨i, hi, _⟩ => by cases hi
  | cons s rest ih =>
    unfold walk
    by_cases hs : holdsInstant now s = true
    · rw [List.dropWhile_cons_of_neg (by simp [hs])]
      dsimp only
      have hin := of_decide_eq_true hs
      obtain ⟨hle, hnot, hall⟩ := @runEnd_spec rest s.effectiveEnd h.tail fun x hx => h.after hx
      refine Answers.until (hin.2.trans_le hle) (fun hc => ?_) fun x hx hlt => ?_
      · rcases coversSpan_cons.mp hc with hc | hc
        · exact absurd hc.2 (not_lt.mpr hle)
        · exact hnot hc
      · by_cases hbefore : x < s.effectiveEnd
        · exact coversSpan_cons.mpr (.inl ⟨hin.1.trans hx, hbefore⟩)
        · exact coversSpan_cons.mpr (.inr (hall x (not_lt.mp hbefore) hlt))
    · rw [List.dropWhile_cons_of_pos (by simp [hs])]
      have hout : ¬ (s.effectiveStart ≤ now ∧ now < s.effectiveEnd) := fun hin => hs (decide_eq_true hin)
      have hrest := ih h.tail
      have hnow : CoversSpan (s :: rest) now ↔ CoversSpan rest now := coversSpan_cons.trans (or_iff_right hout)
      refine ⟨hrest.valid.trans hnow.symm, hrest.ended.trans (not_congr hnow.symm), fun t ht => ?_⟩
      obtain ⟨hlt, hnot, hall⟩ := hrest.expires t ht
      have hpast := h.after (hall now le_rfl hlt)
      refine ⟨hlt, fun hc => ?_, fun x hx hlt => coversSpan_cons.mpr (.inr (hall x hx hlt))⟩
      rcases coversSpan_cons.mp hc with hc | hc
      · have := hc.2
        omega
      · exact hnot hc

theorem personalEntitlementAt_answers (h : Ordered spans) (now : Int) : Answers (CoversSpan spans) now (personalEntitlementAt spans now) := by
  have hsorted : spans.insertionSort startsBy = spans := by
    refine List.Pairwise.insertionSort_eq ?_
    exact h.apart.imp_of_mem fun ha _ hab => (h.proper _ ha).le.trans hab
  have hwalk : personalEntitlementAt spans now = walk spans now := by
    unfold personalEntitlementAt
    rw [hsorted]
    rfl
  rw [hwalk]
  exact walk_answers h

end

theorem layAll_proper (o : Option Laid) (rows : List LedgerRow) : ∀ s ∈ layAll o rows, s.effectiveStart < s.effectiveEnd := by
  induction rows generalizing o with
  | nil => exact nofun
  | cons r rows ih =>
    intro s hs
    rcases List.mem_cons.mp hs with rfl | hs
    · exact start_lt_periodEnd r.price _ _
    · exact ih (some (next o r)) s hs

theorem spans_ordered (db : LedgerDb) (personal : Uuid) : Ordered (billing_personal_spans db personal none) :=
  ⟨layAll_proper none _, layAll_disjoint none _⟩

/-- The three operations are union, intersection and difference of instants, and without holds
the two calculations agree. -/
theorem interval_algebra (a b : List Interval) (db : LedgerDb) (personal : Uuid) (now : Int) :
    ((Proper (merge a) ∧ Spaced (merge a)) ∧ ∀ x, Covers (merge a) x ↔ Covers a x) ∧
      ((Proper (intersect a b) ∧ Spaced (intersect a b)) ∧ ∀ x, Covers (intersect a b) x ↔ Covers a x ∧ Covers b x) ∧
      ((Proper (subtract a b) ∧ Spaced (subtract a b)) ∧ ∀ x, Covers (subtract a b) x ↔ Covers a x ∧ ¬ Covers b x) ∧
      entitlementAt ((billing_personal_spans db personal none).map spanInterval) [] now =
        personalEntitlementAt (billing_personal_spans db personal none) now := by
  refine ⟨⟨merge_spaced a, merge_covers a⟩, ⟨intersect_spaced a b, intersect_covers a b⟩, ⟨subtract_spaced a b, subtract_covers a b⟩, ?_⟩
  have hheld := (entitlementAt_answers ((billing_personal_spans db personal none).map spanInterval) [] now).congr (effective_unheld _)
  exact hheld.unique (personalEntitlementAt_answers (spans_ordered db personal) now)

end NawaraCore.Entitlements
