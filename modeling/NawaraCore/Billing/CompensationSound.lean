import NawaraCore.Billing.FraudHoldIntervalsSound

/-!
# Compensation conserves paid time

Compensation is placed run by run with a carry. One induction over the runs gives
its place in the gaps, one its total and one its relation to the holds; the
effective time is then counted by inclusion and exclusion.
-/

namespace NawaraCore.FraudHolds

open HalfOpen

theorem le_foldl_max (l : List Int) (b : Int) : b ≤ l.foldl max b ∧ ∀ x ∈ l, x ≤ l.foldl max b := by
  induction l generalizing b with
  | nil => simp
  | cons a l ih =>
    obtain ⟨h1, h2⟩ := ih (max b a)
    rw [List.foldl_cons]
    refine ⟨(le_max_left _ _).trans h1, fun x hx => ?_⟩
    rcases List.mem_cons.mp hx with rfl | hx
    · exact (le_max_right _ _).trans h1
    · exact h2 x hx

theorem run_le_start (holds : List HoldWindow) (run : Interval) : run.stop ≤ compensationStart holds run :=
  (le_foldl_max _ _).1

variable {run : Interval} {rest : List Interval}

theorem hold_le_start {holds : List HoldWindow} {h : HoldWindow} (hh : h ∈ holds) {x : Int}
    (hr : run.Has x) (hx : h.interval.Has x) : h.stop ≤ compensationStart holds run := by
  refine (le_foldl_max _ _).2 _ (List.mem_map_of_mem (List.mem_filter.mpr ⟨hh, ?_⟩))
  simp only [Has, HoldWindow.interval] at hr hx
  simp only [decide_eq_true_eq]
  omega

/-! ## The loop over the runs -/

section
variable (held : List Interval) (holds : List HoldWindow)

theorem denied_nonneg (run : Interval) : 0 ≤ length (intersect [run] held) := length_nonneg _

theorem compensationLoop_nil_of_rest (h : rest.head? = none) (carry : Int) :
    compensationLoop held holds carry rest = [] := by
  rw [List.head?_eq_none_iff.mp h]; rfl

theorem starts_from_head {next : Interval} {b : Int} (hn : rest.head? = some next)
    (hp : Proper (run :: rest)) (hs : Spaced (run :: rest)) (hb : b ≤ next.start) : ∀ r ∈ rest, b ≤ r.start := by
  intro r hr
  cases rest with
  | nil => cases hn
  | cons m rest =>
    cases hn
    rcases List.mem_cons.mp hr with rfl | hr
    · exact hb
    · have := (spaced_cons _ _).mp ((spaced_cons _ _).mp hs).2 |>.1 r hr
      have := hp next (List.mem_cons_of_mem _ List.mem_cons_self)
      omega

theorem after_first {out : List Interval} (hp : Proper (run :: rest))
    (hs : Spaced (run :: rest)) (hn : rest.head? = none → out = [])
    (h : ∀ c ∈ out, ∀ r ∈ rest.head?, r.stop ≤ c.start) : ∀ c ∈ out, run.stop ≤ c.start := by
  intro c hcm
  cases rest with
  | nil => rw [hn rfl] at hcm; cases hcm
  | cons next rest =>
    have := h c hcm next rfl
    have := (spaced_cons _ _).mp hs |>.1 next List.mem_cons_self
    have := hp next (List.mem_cons_of_mem _ List.mem_cons_self)
    omega

theorem compensationLoop_placed (carry : Int) (runs : List Interval) (hc : 0 ≤ carry)
    (hp : Proper runs) (hs : Spaced runs) :
    Proper (compensationLoop held holds carry runs) ∧ Apart (compensationLoop held holds carry runs) ∧
    (∀ c ∈ compensationLoop held holds carry runs, ∀ r ∈ runs.head?, r.stop ≤ c.start) ∧
    (∀ c ∈ compensationLoop held holds carry runs, ∀ r ∈ runs, c.stop ≤ r.start ∨ r.stop ≤ c.start) := by
  fun_induction compensationLoop held holds carry runs with
  | case1 carry => simp
  | case2 carry run rest denied total h0 ih =>
    obtain ⟨h1, h2, h3, h4⟩ := ih hc ((proper_cons _ _).mp hp).2 ((spaced_cons _ _).mp hs).2
    have h5 := after_first hp hs (compensationLoop_nil_of_rest held holds · _) h3
    refine ⟨h1, h2, fun c hcm r hr => ?_, fun c hcm r hr => ?_⟩
    · cases hr; exact h5 c hcm
    · rcases List.mem_cons.mp hr with rfl | hr
      · exact .inr (h5 c hcm)
      · exact h4 c hcm r hr
  | case3 carry run rest denied total h0 start next hn hle ih =>
    obtain ⟨h1, h2, h3, h4⟩ := ih (add_nonneg hc (denied_nonneg held run)) ((proper_cons _ _).mp hp).2
      ((spaced_cons _ _).mp hs).2
    have h5 := after_first hp hs (compensationLoop_nil_of_rest held holds · _) h3
    refine ⟨h1, h2, fun c hcm r hr => ?_, fun c hcm r hr => ?_⟩
    · cases hr; exact h5 c hcm
    · rcases List.mem_cons.mp hr with rfl | hr
      · exact .inr (h5 c hcm)
      · exact h4 c hcm r hr
  | case4 carry run rest denied total h0 start next hn hlt n ih =>
    have ht : 0 ≤ total := add_nonneg hc (denied_nonneg held run)
    obtain ⟨h1, h2, h3, h4⟩ := ih (by omega) ((proper_cons _ _).mp hp).2 ((spaced_cons _ _).mp hs).2
    have h5 := after_first hp hs (compensationLoop_nil_of_rest held holds · _) h3
    have hrun : run.stop ≤ start := run_le_start holds run
    have hmem : next ∈ rest := List.mem_of_mem_head? hn
    -- the placed interval ends by the start of the next run, hence by that of every later run
    have hlim : ∀ r ∈ rest, start + n ≤ r.start := starts_from_head hn hp hs (by omega)
    refine ⟨(proper_cons _ _).mpr ⟨by simp only; omega, h1⟩, (apart_cons _ _).mpr ⟨fun c hcm => ?_, h2⟩,
      fun c hcm r hr => ?_, fun c hcm r hr => ?_⟩
    · have := h3 c hcm next hn
      have := hlim next hmem
      have := hp next (List.mem_cons_of_mem _ hmem)
      simp only; omega
    · cases hr
      rcases List.mem_cons.mp hcm with rfl | hcm
      · exact hrun
      · exact h5 c hcm
    · rcases List.mem_cons.mp hcm with rfl | hcm
      · rcases List.mem_cons.mp hr with rfl | hr
        · exact .inr hrun
        · exact .inl (hlim r hr)
      · rcases List.mem_cons.mp hr with rfl | hr
        · exact .inr (h5 c hcm)
        · exact h4 c hcm r hr
  | case5 carry run rest denied total h0 start hn ih =>
    have ht : 0 ≤ total := add_nonneg hc (denied_nonneg held run)
    have hrun : run.stop ≤ start := run_le_start holds run
    rw [compensationLoop_nil_of_rest held holds hn]
    refine ⟨(proper_cons _ _).mpr ⟨by simp only; omega, proper_nil⟩, by simp, fun c hcm r hr => ?_,
      fun c hcm r hr => ?_⟩
    · cases hr; rw [List.mem_singleton] at hcm; subst hcm; exact hrun
    · rw [List.head?_eq_none_iff.mp hn, List.mem_singleton] at hr
      rw [List.mem_singleton] at hcm
      subst hcm hr; exact .inr hrun

theorem compensationLoop_size (carry : Int) (runs : List Interval) (hc : 0 ≤ carry) :
    size (compensationLoop held holds carry runs) =
      if runs = [] then 0 else carry + (runs.map fun r => length (intersect [r] held)).sum := by
  fun_induction compensationLoop held holds carry runs with
  | case1 carry => rfl
  | case2 carry run rest denied total h0 ih =>
    have : carry = 0 ∧ denied = 0 := by
      have : 0 ≤ denied := denied_nonneg held run
      omega
    rw [ih hc, if_neg (List.cons_ne_nil _ _), List.map_cons, List.sum_cons]
    split
    · rename_i h; subst h; simp only [List.map_nil, List.sum_nil]; omega
    · omega
  | case3 carry run rest denied total h0 start next hn hle ih =>
    have hne : rest ≠ [] := by rintro rfl; cases hn
    rw [ih (add_nonneg hc (denied_nonneg held run)), if_neg hne, if_neg (List.cons_ne_nil _ _), List.map_cons,
      List.sum_cons]
    omega
  | case4 carry run rest denied total h0 start next hn hlt n ih =>
    have ht : 0 ≤ total := add_nonneg hc (denied_nonneg held run)
    have hne : rest ≠ [] := by rintro rfl; cases hn
    rw [size_cons, ih (by omega), if_neg hne, if_neg (List.cons_ne_nil _ _), List.map_cons, List.sum_cons]
    simp only
    omega
  | case5 carry run rest denied total h0 start hn ih =>
    have hrest := List.head?_eq_none_iff.mp hn
    subst hrest
    simp only [compensationLoop, size_cons, size_nil, List.map_cons, List.map_nil, List.sum_cons, List.sum_nil]
    rw [if_neg (List.cons_ne_nil _ _)]
    omega

/-- `c` never starts before the end of a hold that denied an instant of `runs` before it. -/
def AfterHolds (runs : List Interval) (c : Interval) : Prop :=
  ∀ h ∈ holds, ∀ x, Covers runs x → h.interval.Has x → x < c.start → h.stop ≤ c.start

theorem afterHolds_cons {carry : Int} {c : Interval} (hc : 0 ≤ carry)
    (hp : Proper (run :: rest)) (hs : Spaced (run :: rest)) (hcm : c ∈ compensationLoop held holds carry rest)
    (ih : AfterHolds holds rest c) : AfterHolds holds (run :: rest) c := by
  intro h hh x hx hhx hlt
  rcases (covers_cons _ _ _).mp hx with hrx | hx
  · cases rest with
    | nil => cases hcm
    | cons next rest =>
      have h1 := (compensationLoop_placed held holds carry (next :: rest) hc ((proper_cons _ _).mp hp).2
        ((spaced_cons _ _).mp hs).2).2.2.1 c hcm next rfl
      have h2 := hp next (List.mem_cons_of_mem _ List.mem_cons_self)
      have h3 := (spaced_cons _ _).mp hs |>.1 next List.mem_cons_self
      by_cases hle : h.stop ≤ next.start
      · omega
      · refine ih h hh next.start ((covers_cons _ _ _).mpr (.inl ⟨le_rfl, h2⟩)) ?_ (by omega)
        simp only [Has, HoldWindow.interval] at hrx hhx ⊢
        omega
  · exact ih h hh x hx hhx hlt

theorem afterHolds_placed {n : Int}
    (hlim : ∀ next ∈ rest, compensationStart holds run ≤ next.start) :
    AfterHolds holds (run :: rest) ⟨compensationStart holds run, n⟩ := by
  intro h hh x hx hhx hlt
  rcases (covers_cons _ _ _).mp hx with hx | hx
  · exact hold_le_start hh hx hhx
  · have := le_of_covers hlim hx
    simp only at hlt
    omega

theorem compensationLoop_after_holds (carry : Int) (runs : List Interval) (hc : 0 ≤ carry)
    (hp : Proper runs) (hs : Spaced runs) : ∀ c ∈ compensationLoop held holds carry runs, AfterHolds holds runs c := by
  fun_induction compensationLoop held holds carry runs with
  | case1 carry => simp
  | case2 carry run rest denied total h0 ih =>
    intro c hcm
    exact afterHolds_cons held holds hc hp hs hcm (ih hc ((proper_cons _ _).mp hp).2 ((spaced_cons _ _).mp hs).2 c hcm)
  | case3 carry run rest denied total h0 start next hn hle ih =>
    intro c hcm
    have ht : 0 ≤ total := add_nonneg hc (denied_nonneg held run)
    exact afterHolds_cons held holds ht hp hs hcm (ih ht ((proper_cons _ _).mp hp).2 ((spaced_cons _ _).mp hs).2 c hcm)
  | case4 carry run rest denied total h0 start next hn hlt n ih =>
    intro c hcm
    have ht : 0 ≤ total - n := by omega
    rcases List.mem_cons.mp hcm with rfl | hcm
    · exact afterHolds_placed holds (starts_from_head hn hp hs (by omega))
    · exact afterHolds_cons held holds ht hp hs hcm (ih ht ((proper_cons _ _).mp hp).2 ((spaced_cons _ _).mp hs).2 c hcm)
  | case5 carry run rest denied total h0 start hn ih =>
    intro c hcm
    rw [List.head?_eq_none_iff.mp hn] at hcm ⊢
    rw [compensationLoop, List.mem_singleton] at hcm
    subst hcm
    exact afterHolds_placed holds (by simp)

end

/-! ## The whole of compensation -/

theorem denied_sum (held : List Interval) : ∀ {runs : List Interval}, Apart runs →
    (runs.map fun r => length (intersect [r] held)).sum = length (intersect runs held)
  | [], _ => by
    rw [length_eq_card]
    symm
    simp only [List.map_nil, List.sum_nil, Nat.cast_eq_zero, Finset.card_eq_zero]
    ext x
    simp [intersect_covers]
  | r :: runs, ha => by
    rw [apart_cons] at ha
    rw [List.map_cons, List.sum_cons, denied_sum held ha.2, length_eq_card, length_eq_card, length_eq_card,
      ← Nat.cast_add, ← Finset.card_union_of_disjoint]
    · congr 2
      ext x
      simp only [Finset.mem_union, mem_points, intersect_covers, covers_cons, covers_nil, or_false]
      tauto
    · rw [Finset.disjoint_left]
      intro x hx hx'
      simp only [mem_points, intersect_covers, covers_cons, covers_nil, or_false] at hx hx'
      have := le_of_covers ha.1 hx'.1
      have := hx.1.2
      omega

section
variable (paid : List Interval) (holds : List HoldWindow)

theorem compensation_size :
    size (compensation paid holds) = length (intersect paid (holds.map HoldWindow.interval)) := by
  have h := merge_spaced paid
  rw [compensation, compensationLoop_size _ _ _ _ le_rfl, zero_add, denied_sum _ h.2.apart]
  rw [length_eq_card, length_eq_card]
  have e : points (intersect (merge paid) (merge (holds.map HoldWindow.interval))) =
      points (intersect paid (holds.map HoldWindow.interval)) := by
    ext x
    simp only [mem_points, intersect_covers, merge_covers]
  rw [e]
  split
  · rename_i hm
    symm
    simp only [Nat.cast_eq_zero, Finset.card_eq_zero]
    ext x
    rw [mem_points, intersect_covers, ← merge_covers paid, hm]
    simp
  · rfl

theorem compensation_placed :
    Proper (compensation paid holds) ∧ Apart (compensation paid holds) ∧
    ∀ c ∈ compensation paid holds, ∀ x, c.Has x → ¬ Covers paid x := by
  have h := merge_spaced paid
  obtain ⟨h1, h2, _, h4⟩ := compensationLoop_placed (merge (holds.map HoldWindow.interval)) holds 0 (merge paid)
    le_rfl h.1 h.2
  refine ⟨h1, h2, fun c hc x hx hp => ?_⟩
  obtain ⟨r, hr, hrx⟩ := (merge_covers paid x).mpr hp
  have := h4 c hc r hr
  simp only [Has] at hx hrx
  omega

theorem compensation_after_holds : ∀ c ∈ compensation paid holds, AfterHolds holds paid c := by
  intro c hc h hh x hx
  have hm := merge_spaced paid
  exact compensationLoop_after_holds _ holds 0 (merge paid) le_rfl hm.1 hm.2 c hc h hh x ((merge_covers paid x).mpr hx)

theorem effective_covers (x : Int) : Covers (effective paid holds) x ↔
    (Covers paid x ∨ Covers (compensation paid holds) x) ∧ ∀ h ∈ holds, ¬ h.interval.Has x := by
  rw [effective, subtract_covers, merge_covers, covers_append]
  simp [Covers]

theorem entitlementAt_valid (now : Int) :
    (entitlementAt paid holds now).valid = true ↔ Covers (effective paid holds) now := by
  rw [← merge_covers]
  unfold entitlementAt
  split
  · rename_i i hi
    have h := List.find?_some hi
    simp only [decide_eq_true_eq] at h
    simpa using covers_of_mem (List.mem_of_find?_eq_some hi) h
  · rename_i hn
    have h := List.find?_eq_none.mp hn
    simp only [Bool.false_eq_true, false_iff]
    rintro ⟨i, hi, hx⟩
    exact h i hi (by simpa [Has] using hx)

theorem granted_eq_points :
    {now | (entitlementAt paid holds now).valid = true} = (points (effective paid holds) : Set Int) := by
  ext now
  rw [Set.mem_ofPred_eq, entitlementAt_valid, Finset.mem_coe, mem_points]

theorem granted_count :
    ({now | (entitlementAt paid holds now).valid = true}.ncard : Int) =
      length paid + length (compensation paid holds) -
        length (intersect (merge (paid ++ compensation paid holds)) (holds.map HoldWindow.interval)) := by
  have hd : Disjoint (points paid) (points (compensation paid holds)) := by
    rw [Finset.disjoint_left]
    intro x hx hc
    obtain ⟨c, hc, hcx⟩ := mem_points.mp hc
    exact (compensation_placed paid holds).2.2 c hc x hcx (mem_points.mp hx)
  have hall : (points (merge (paid ++ compensation paid holds))).card =
      (points paid).card + (points (compensation paid holds)).card := by
    rw [← Finset.card_union_of_disjoint hd]
    congr 1
    ext x
    simp [merge_covers]
  have hsplit : (points (effective paid holds)).card +
      (points (intersect (merge (paid ++ compensation paid holds)) (holds.map HoldWindow.interval))).card =
      (points (merge (paid ++ compensation paid holds))).card := by
    rw [← Finset.card_union_of_disjoint]
    · congr 1
      ext x
      simp only [Finset.mem_union, mem_points, effective, subtract_covers, intersect_covers, merge_covers]
      tauto
    · rw [Finset.disjoint_left]
      intro x hx hi
      simp only [mem_points, effective, subtract_covers, intersect_covers, merge_covers] at hx hi
      exact hx.2 hi.2
  rw [granted_eq_points, Set.ncard_coe_finset, length_eq_card, length_eq_card, length_eq_card]
  omega

end

/-- **Compensation conserves paid time.** The compensation is as long as the paid
time the holds denied, lies apart from itself and from paid time, never starts
before a hold that produced it has ended, and every paid span keeps its dates; the
granted time is the paid time and the compensation less what the holds restrict. -/
theorem compensation_conserves_paid_time (paid : List Interval) (holds : List HoldWindow) :
    size (compensation paid holds) = length (intersect paid (holds.map HoldWindow.interval)) ∧
    size (compensation paid holds) = (points paid ∩ points (holds.map HoldWindow.interval)).card ∧
    (compensation paid holds).Pairwise (fun c d => ∀ x, ¬ (c.Has x ∧ d.Has x)) ∧
    (∀ c ∈ compensation paid holds, ∀ p ∈ paid, ∀ x, ¬ (c.Has x ∧ p.Has x)) ∧
    (∀ p ∈ paid, ∀ x, p.Has x →
      ((entitlementAt paid holds x).valid = true ↔ ∀ h ∈ holds, ¬ h.interval.Has x)) ∧
    (∀ c ∈ compensation paid holds, ∀ h ∈ holds, ∀ x, Covers paid x → h.interval.Has x → x < c.start →
      h.stop ≤ c.start) ∧
    ({now | (entitlementAt paid holds now).valid = true}.ncard : Int) =
      length paid + length (compensation paid holds) -
        length (intersect (merge (paid ++ compensation paid holds)) (holds.map HoldWindow.interval)) := by
  obtain ⟨hp, ha, hd⟩ := compensation_placed paid holds
  have hsize := compensation_size paid holds
  refine ⟨hsize, ?_, ?_, ?_, ?_, compensation_after_holds paid holds, granted_count paid holds⟩
  · rw [hsize, length_eq_card]
    congr 2
    ext x
    rw [mem_points, intersect_covers, Finset.mem_inter, mem_points, mem_points]
  · refine ha.imp fun h x hx => ?_
    simp only [Has] at hx
    omega
  · rintro c hc p hpm x ⟨hcx, hpx⟩
    exact hd c hc x hcx (covers_of_mem hpm hpx)
  · intro p hpm x hx
    rw [entitlementAt_valid, effective_covers]
    exact ⟨fun h => h.2, fun h => ⟨.inl (covers_of_mem hpm hx), h⟩⟩

end NawaraCore.FraudHolds
