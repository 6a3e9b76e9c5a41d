import Mathlib.Data.Set.Card
import NawaraCore.Billing.FraudHoldIntervals

/-!
# Paid time is conserved by fraud-hold compensation

`merge`, `intersect` and `subtract` return spaced lists that cover the union, the
intersection and the difference of what they are given, so `length` counts
instants. Compensation is placed run by run with a carry; one induction over the
runs gives its total, its place in the gaps and its relation to the holds.
-/

namespace NawaraCore.FraudHolds

open HalfOpen

/-! ## merge -/

instance : Std.Total byStart := ⟨fun a b => by unfold byStart; omega⟩

instance : IsTrans Interval byStart := ⟨fun a b c h h' => by unfold byStart at *; omega⟩

def InOrder (l : List Interval) : Prop := l.Pairwise fun a b => a.start ≤ b.start

variable {l : List Interval}

theorem inOrder_raise {a a' : Interval} (h : InOrder (a :: l)) (he : a'.start = a.start) :
    InOrder (a' :: l) := by
  have := List.pairwise_cons.mp h
  exact List.pairwise_cons.mpr ⟨fun j hj => he ▸ this.1 j hj, this.2⟩

variable {a b : Interval}

theorem inOrder_drop (h : InOrder (a :: b :: l)) : InOrder (a :: l) := by
  obtain ⟨h1, h2⟩ := List.pairwise_cons.mp h
  exact List.pairwise_cons.mpr ⟨fun j hj => h1 j (List.mem_cons_of_mem _ hj), (List.pairwise_cons.mp h2).2⟩

theorem mergeFrom_covers {x : Int} : ∀ {last : Interval} {l : List Interval}, last.start < last.stop →
    Proper l → InOrder (last :: l) → (Covers (mergeFrom last l) x ↔ last.Has x ∨ Covers l x)
  | last, [], _, _, _ => by simp [mergeFrom]
  | last, i :: l, hl, hp, hs => by
    rw [proper_cons] at hp
    have hi : last.start ≤ i.start := (List.pairwise_cons.mp hs).1 i List.mem_cons_self
    unfold mergeFrom
    split
    · let m : Interval := ⟨last.start, max last.stop i.stop⟩
      have hm : m.start < m.stop := by simp only [m]; omega
      rw [mergeFrom_covers hm hp.2 (inOrder_raise (inOrder_drop hs) rfl)]
      simp only [m, covers_cons, Has, ← or_assoc]
      refine or_congr ?_ Iff.rfl
      omega
    · simp only [covers_cons]
      rw [mergeFrom_covers hp.1 hp.2 (List.pairwise_cons.mp hs).2]

theorem mergeFrom_spaced : ∀ {last : Interval} {l : List Interval}, last.start < last.stop →
    Proper l → InOrder (last :: l) → Proper (mergeFrom last l) ∧ Spaced (mergeFrom last l) ∧
      ∀ j ∈ mergeFrom last l, last.start ≤ j.start
  | last, [], hl, _, _ => by simp [mergeFrom, hl]
  | last, i :: l, hl, hp, hs => by
    rw [proper_cons] at hp
    have hi : last.start ≤ i.start := (List.pairwise_cons.mp hs).1 i List.mem_cons_self
    unfold mergeFrom
    split
    · exact mergeFrom_spaced (by simp only; omega) hp.2 (inOrder_raise (inOrder_drop hs) rfl)
    · rename_i hlt
      obtain ⟨h1, h2, h3⟩ := mergeFrom_spaced hp.1 hp.2 (List.pairwise_cons.mp hs).2
      refine ⟨(proper_cons _ _).mpr ⟨hl, h1⟩, (spaced_cons _ _).mpr ⟨fun j hj => ?_, h2⟩, fun j hj => ?_⟩
      · have := h3 j hj; omega
      · rcases List.mem_cons.mp hj with rfl | hj
        · exact le_rfl
        · exact hi.trans (h3 j hj)

theorem inOrder_sorted (l : List Interval) : InOrder (l.insertionSort byStart) :=
  (List.pairwise_insertionSort byStart l).imp fun h => by unfold byStart at h; omega

theorem proper_sorted (l : List Interval) :
    Proper ((l.filter fun i => i.start < i.stop).insertionSort byStart) := by
  intro i hi
  have := List.of_mem_filter ((List.mem_insertionSort _).mp hi)
  simpa using this

theorem covers_filter (l : List Interval) (x : Int) :
    Covers (l.filter fun i => i.start < i.stop) x ↔ Covers l x := by
  constructor
  · rintro ⟨i, hi, hx⟩
    exact ⟨i, List.mem_of_mem_filter hi, hx⟩
  · rintro ⟨i, hi, hx⟩
    refine ⟨i, List.mem_filter.mpr ⟨hi, ?_⟩, hx⟩
    have := hx.1.trans_lt hx.2
    simpa using this

theorem mergeSorted_covers (hp : Proper l) (ho : InOrder l) (x : Int) :
    Covers (mergeSorted l) x ↔ Covers l x := by
  cases l with
  | nil => simp [mergeSorted]
  | cons i l =>
    rw [proper_cons] at hp
    rw [mergeSorted, mergeFrom_covers hp.1 hp.2 ho, covers_cons]

theorem mergeSorted_spaced (hp : Proper l) (ho : InOrder l) :
    Proper (mergeSorted l) ∧ Spaced (mergeSorted l) := by
  cases l with
  | nil => simp [mergeSorted]
  | cons i l =>
    rw [proper_cons] at hp
    have := mergeFrom_spaced hp.1 hp.2 ho
    exact ⟨this.1, this.2.1⟩

theorem merge_covers (l : List Interval) (x : Int) : Covers (merge l) x ↔ Covers l x := by
  rw [merge, mergeSorted_covers (proper_sorted l) (inOrder_sorted _),
    covers_perm (List.perm_insertionSort byStart _), covers_filter]

theorem merge_spaced (l : List Interval) : Proper (merge l) ∧ Spaced (merge l) :=
  mergeSorted_spaced (proper_sorted l) (inOrder_sorted _)

theorem foldl_size (l : List Interval) (n : Int) :
    l.foldl (fun n i => n + (i.stop - i.start)) n = n + size l := by
  induction l generalizing n with
  | nil => simp
  | cons i l ih => rw [List.foldl_cons, ih, size_cons]; omega

theorem length_eq_card (l : List Interval) : length l = (points l).card := by
  have h := merge_spaced l
  rw [length, foldl_size, zero_add, size_eq_card h.1 h.2.apart]
  congr 2
  ext x
  rw [mem_points, mem_points, merge_covers]

theorem length_nonneg (l : List Interval) : 0 ≤ length l := by
  rw [length_eq_card]; exact Int.natCast_nonneg _

/-! ## intersect -/

theorem overlap_covers (a b : Interval) (t : Int) : Covers (overlap a b) t ↔ a.Has t ∧ b.Has t := by
  simp only [overlap]
  split
  · simp only [covers_cons, covers_nil, or_false, Has]; omega
  · simp only [covers_nil, Has, false_iff]; omega

theorem intersectLoop_covers (t : Int) (x y : List Interval) (hx : Spaced x) (hy : Spaced y) :
    Covers (intersectLoop x y) t ↔ Covers x t ∧ Covers y t := by
  fun_induction intersectLoop x y with
  | case1 y => simp
  | case2 a as => simp
  | case3 a as b bs hlt ih =>
    rw [covers_append, ih ((spaced_cons _ _).mp hx).2 hy, covers_cons, covers_cons, overlap_covers]
    have hno : a.Has t → ¬ Covers bs t := by
      intro ha hb
      have := le_of_covers (fun j hj => (((spaced_cons _ _).mp hy).1 j hj).le) hb
      have := ha.2
      omega
    tauto
  | case4 a as b bs hle ih =>
    rw [covers_append, ih hx ((spaced_cons _ _).mp hy).2, covers_cons, covers_cons, overlap_covers]
    have hno : b.Has t → ¬ Covers as t := by
      intro hb ha
      have := le_of_covers (fun j hj => (((spaced_cons _ _).mp hx).1 j hj).le) ha
      have := hb.2
      omega
    tauto

theorem overlap_inside {a b j : Interval} (hj : j ∈ overlap a b) :
    (a.start ≤ j.start ∧ j.stop ≤ a.stop) ∧ (b.start ≤ j.start ∧ j.stop ≤ b.stop) ∧ j.start < j.stop := by
  simp only [overlap] at hj
  split at hj
  · rw [List.mem_singleton] at hj; subst hj; simp only; omega
  · cases hj

theorem overlap_spaced (hl : ∀ j ∈ l, min a.stop b.stop < j.start)
    (hs : Spaced l) : Spaced (overlap a b ++ l) := by
  simp only [overlap]
  split
  · exact (spaced_cons _ _).mpr ⟨hl, hs⟩
  · exact hs

theorem intersectLoop_inside (x y : List Interval) : ∀ j ∈ intersectLoop x y,
    (∃ i ∈ x, i.start ≤ j.start ∧ j.stop ≤ i.stop) ∧ (∃ i ∈ y, i.start ≤ j.start ∧ j.stop ≤ i.stop) ∧
      j.start < j.stop := by
  fun_induction intersectLoop x y with
  | case1 y => simp
  | case2 a as => simp
  | case3 a as b bs hlt ih =>
    intro j hj
    rcases List.mem_append.mp hj with hj | hj
    · have := overlap_inside hj
      exact ⟨⟨a, List.mem_cons_self, this.1⟩, ⟨b, List.mem_cons_self, this.2.1⟩, this.2.2⟩
    · obtain ⟨⟨i, hi, h1⟩, h2⟩ := ih j hj
      exact ⟨⟨i, List.mem_cons_of_mem _ hi, h1⟩, h2⟩
  | case4 a as b bs hle ih =>
    intro j hj
    rcases List.mem_append.mp hj with hj | hj
    · have := overlap_inside hj
      exact ⟨⟨a, List.mem_cons_self, this.1⟩, ⟨b, List.mem_cons_self, this.2.1⟩, this.2.2⟩
    · obtain ⟨h1, ⟨i, hi, h2⟩, h3⟩ := ih j hj
      exact ⟨h1, ⟨i, List.mem_cons_of_mem _ hi, h2⟩, h3⟩

theorem intersectLoop_spaced (x y : List Interval) (hx : Spaced x) (hy : Spaced y) :
    Spaced (intersectLoop x y) := by
  fun_induction intersectLoop x y with
  | case1 y => simp
  | case2 a as => simp
  | case3 a as b bs hlt ih =>
    rw [spaced_cons] at hx
    refine overlap_spaced (fun j hj => ?_) (ih hx.2 hy)
    obtain ⟨⟨i, hi, h1, _⟩, _⟩ := intersectLoop_inside _ _ j hj
    have := hx.1 i hi
    omega
  | case4 a as b bs hle ih =>
    rw [spaced_cons] at hy
    refine overlap_spaced (fun j hj => ?_) (ih hx hy.2)
    obtain ⟨_, ⟨i, hi, h1, _⟩, _⟩ := intersectLoop_inside _ _ j hj
    have := hy.1 i hi
    omega

theorem intersect_covers (a b : List Interval) (x : Int) :
    Covers (intersect a b) x ↔ Covers a x ∧ Covers b x := by
  rw [intersect, intersectLoop_covers x _ _ (merge_spaced a).2 (merge_spaced b).2, merge_covers, merge_covers]

theorem intersect_spaced (a b : List Interval) : Proper (intersect a b) ∧ Spaced (intersect a b) :=
  ⟨fun j hj => (intersectLoop_inside _ _ j hj).2.2,
    intersectLoop_spaced _ _ (merge_spaced a).2 (merge_spaced b).2⟩

/-! ## subtract -/

theorem cutLoop_covers (i : Interval) (x : Int) : ∀ (s : Int) (cut : List Interval), Proper cut → Spaced cut →
    (Covers (cutLoop i s cut) x ↔ s ≤ x ∧ x < i.stop ∧ ¬ Covers cut x)
  | s, [], _, _ => by
    unfold cutLoop
    split
    · simp [Has]
    · simp only [covers_nil, not_false_iff, and_true, false_iff]; omega
  | s, c :: cut, hp, hs => by
    rw [proper_cons] at hp
    rw [spaced_cons] at hs
    have hlate : Covers cut x → c.stop ≤ x := fun h => le_of_covers (fun j hj => (hs.1 j hj).le) h
    unfold cutLoop
    simp only [covers_cons, not_or]
    split
    · rw [cutLoop_covers i x s cut hp.2 hs.2]
      simp only [Has]
      constructor
      · rintro ⟨h1, h2, h3⟩; exact ⟨h1, h2, by omega, h3⟩
      · rintro ⟨h1, h2, _, h3⟩; exact ⟨h1, h2, h3⟩
    · rename_i hmeet
      have hout : Covers (if s < c.start then [(⟨s, c.start⟩ : Interval)] else []) x ↔ s ≤ x ∧ x < c.start := by
        split
        · simp [Has]
        · simp only [covers_nil, false_iff]; omega
      split
      · rw [hout]
        simp only [Has]
        constructor
        · rintro ⟨h1, h2⟩
          refine ⟨h1, by omega, by omega, fun h => ?_⟩
          have := hlate h
          omega
        · rintro ⟨h1, h2, h3, _⟩
          omega
      · rw [covers_append, hout, cutLoop_covers i x (max s c.stop) cut hp.2 hs.2]
        simp only [Has]
        constructor
        · rintro (⟨h1, h2⟩ | ⟨h1, h2, h3⟩)
          · refine ⟨h1, by omega, by omega, fun h => ?_⟩
            have := hlate h
            omega
          · exact ⟨by omega, h2, by omega, h3⟩
        · rintro ⟨h1, h2, h3, h4⟩
          by_cases h : x < c.start
          · exact .inl ⟨h1, h⟩
          · exact .inr ⟨by omega, h2, h4⟩

theorem cutLoop_inside (i : Interval) : ∀ (s : Int) (cut : List Interval), ∀ j ∈ cutLoop i s cut,
    s ≤ j.start ∧ j.start < j.stop ∧ j.stop ≤ i.stop
  | s, [], j, hj => by
    unfold cutLoop at hj
    split at hj
    · rw [List.mem_singleton] at hj; subst hj; simp only; omega
    · cases hj
  | s, c :: cut, j, hj => by
    unfold cutLoop at hj
    have hout : ∀ j ∈ (if s < c.start then [(⟨s, c.start⟩ : Interval)] else []), ¬ (c.stop ≤ s ∨ i.stop ≤ c.start) →
        s ≤ j.start ∧ j.start < j.stop ∧ j.stop ≤ i.stop := by
      intro j hj hmeet
      split at hj
      · rw [List.mem_singleton] at hj; subst hj; simp only; omega
      · cases hj
    split at hj
    · exact cutLoop_inside i s cut j hj
    · rename_i hmeet
      simp only at hj
      split at hj
      · exact hout j hj hmeet
      · rcases List.mem_append.mp hj with hj | hj
        · exact hout j hj hmeet
        · have := cutLoop_inside i _ cut j hj
          omega

theorem cutLoop_spaced (i : Interval) : ∀ (s : Int) (cut : List Interval), Proper cut → Spaced (cutLoop i s cut)
  | s, [], _ => by
    unfold cutLoop
    split <;> simp
  | s, c :: cut, hp => by
    rw [proper_cons] at hp
    unfold cutLoop
    split
    · exact cutLoop_spaced i s cut hp.2
    · simp only
      split
      · split <;> simp
      · have ih := cutLoop_spaced i (max s c.stop) cut hp.2
        split
        · refine (spaced_cons _ _).mpr ⟨fun j hj => ?_, ih⟩
          have := cutLoop_inside i _ cut j hj
          simp only; omega
        · exact ih

theorem subtract_covers (a b : List Interval) (x : Int) :
    Covers (subtract a b) x ↔ Covers a x ∧ ¬ Covers b x := by
  have hb := merge_spaced b
  rw [← merge_covers a, ← merge_covers b, subtract]
  generalize merge a = l
  induction l with
  | nil => simp
  | cons i l ih =>
    rw [List.flatMap_cons, covers_append, covers_cons, cutLoop_covers i x _ _ hb.1 hb.2]
    refine (or_congr Iff.rfl ih).trans ?_
    simp only [Has]
    tauto

theorem subtract_spaced (a b : List Interval) : Proper (subtract a b) ∧ Spaced (subtract a b) := by
  have hb := merge_spaced b
  have ha := (merge_spaced a).2
  unfold subtract
  constructor
  · intro j hj
    obtain ⟨i, _, hj⟩ := List.mem_flatMap.mp hj
    exact (cutLoop_inside i _ _ j hj).2.1
  · generalize merge a = l at ha
    induction l with
    | nil => simp
    | cons i l ih =>
      rw [spaced_cons] at ha
      rw [List.flatMap_cons]
      refine List.pairwise_append.mpr ⟨cutLoop_spaced i _ _ hb.1, ih ha.2, fun j hj k hk => ?_⟩
      obtain ⟨m, hm, hk⟩ := List.mem_flatMap.mp hk
      have := cutLoop_inside i _ _ j hj
      have := cutLoop_inside m _ _ k hk
      have := ha.1 m hm
      omega

end NawaraCore.FraudHolds
