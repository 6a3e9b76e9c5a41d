import Mathlib.Algebra.Order.Floor.Div
import NawaraCore.Lib.Keyset

/-!
# Scans in batches

A worker takes the oldest `n` items that are pending and visits each, pass after pass. An
item that a visit leaves pending is at the head of the next batch again.
-/

namespace NawaraCore

section
variable {α κ : Type*} [LinearOrder κ] {k : α → κ} {n : Nat} {l : List α} {x : α}

theorem mem_first_page (hn : (l.map k).Nodup) : x ∈ page k n none l ↔ x ∈ l ∧ (l.filter fun a => k a < k x).length < n := by
  have hall : (l.filter fun a => (none : Option κ).all (· < k a)) = l := List.filter_eq_self.mpr fun a _ => rfl
  unfold page
  rw [hall]
  generalize hs : l.insertionSort (fun a b => k a ≤ k b) = s
  have hperm : s.Perm l := hs ▸ List.perm_insertionSort _ l
  have hkeys : (s.map k).Nodup := (hperm.map k).nodup_iff.mpr hn
  have hsorted : s.Pairwise fun a b => k a < k b := by
    have hle : s.Pairwise fun a b => k a ≤ k b := hs ▸ List.pairwise_insertionSort _ _
    have hne : s.Pairwise fun a b => k a ≠ k b := List.pairwise_map.mp hkeys
    exact (hle.and hne).imp fun h => lt_of_le_of_ne h.1 h.2
  rw [← hperm.mem_iff, ← (hperm.filter _).length_eq]
  constructor
  · intro hx
    have hmem := List.mem_of_mem_take hx
    refine ⟨hmem, ?_⟩
    obtain ⟨i, hi, rfl⟩ := List.getElem_of_mem hx
    rw [List.length_take] at hi
    rw [List.getElem_take]
    -- what is older than the item stands before it
    have hsub : (s.filter fun a => k a < k s[i]) ⊆ s.take i := by
      intro a ha
      obtain ⟨ha, hlt⟩ := List.mem_filter.mp ha
      obtain ⟨j, hj, rfl⟩ := List.getElem_of_mem ha
      have hji : j < i := by
        by_contra hge
        rcases Nat.lt_or_eq_of_le (not_lt.mp hge) with hlt' | rfl
        · exact absurd (List.pairwise_iff_getElem.mp hsorted i j _ hj hlt') (not_lt.mpr (of_decide_eq_true hlt).le)
        · exact lt_irrefl _ (of_decide_eq_true hlt)
      exact List.mem_take_iff_getElem.mpr ⟨j, by omega, rfl⟩
    have hle := ((hkeys.of_map.filter _).subperm hsub).length_le
    rw [List.length_take] at hle
    omega
  · rintro ⟨hmem, hlen⟩
    obtain ⟨i, hi, rfl⟩ := List.getElem_of_mem hmem
    refine List.mem_take_iff_getElem.mpr ⟨i, ?_, rfl⟩
    have hsub : s.take i ⊆ s.filter fun a => k a < k s[i] := by
      intro a ha
      obtain ⟨j, hj, rfl⟩ := List.mem_take_iff_getElem.mp ha
      have := List.pairwise_iff_getElem.mp hsorted j i (by omega) hi (by omega)
      exact List.mem_filter.mpr ⟨List.getElem_mem _, decide_eq_true this⟩
    have hle := ((hkeys.of_map.sublist (List.take_sublist i s)).subperm hsub).length_le
    rw [List.length_take] at hle
    omega

end

/-! ## Passes -/

section
variable {σ α κ : Type*} [LinearOrder κ] (k : α → κ) (pending : σ → List α) (visit : σ → α → σ) (n : Nat)

def batch (s : σ) : List α := page k n none (pending s)

def pass (s : σ) : σ := (batch k pending n s).foldl visit s

def Waits (s : σ) (a : α) : Prop :=
  ∀ i before after, batch k pending n ((pass k pending visit n)^[i] s) = before ++ a :: after →
    a ∈ pending (visit (before.foldl visit ((pass k pending visit n)^[i] s)) a)

structure BatchScan (I : σ → Prop) : Prop where
  step : ∀ s a, I s → I (visit s a)
  keys : ∀ s, I s → ((pending s).map k).Nodup
  others : ∀ s a b, I s → b ∈ pending s → b ≠ a → b ∈ pending (visit s a)

variable {k pending visit n} {I : σ → Prop} {s : σ} {x : α} {waiting : List α}

omit [LinearOrder κ] in
theorem BatchScan.foldl (h : BatchScan k pending visit I) (hs : I s) (l : List α) : I (l.foldl visit s) := by
  induction l generalizing s with
  | nil => exact hs
  | cons a l ih => exact ih (h.step s a hs)

theorem BatchScan.passes (h : BatchScan k pending visit I) (hs : I s) (i : Nat) : I ((pass k pending visit n)^[i] s) := by
  induction i with
  | zero => exact hs
  | succ i ih =>
    rw [Function.iterate_succ_apply']
    exact h.foldl ih _

theorem Waits.of_fixed (h : ∀ a ∈ batch k pending n s, visit s a = s) (hx : x ∈ pending s) : Waits k pending visit n s x := by
  have hfold : ∀ l ⊆ batch k pending n s, l.foldl visit s = s := by
    intro l hl
    induction l with
    | nil => rfl
    | cons a l ih =>
      rw [List.foldl_cons, h a (hl List.mem_cons_self)]
      exact ih fun b hb => hl (List.mem_cons_of_mem a hb)
  intro i before after he
  rw [Function.iterate_fixed (hfold _ (List.Subset.refl _)) i] at he ⊢
  rw [hfold before fun a ha => he ▸ List.mem_append_left _ ha]
  rwa [h x (he ▸ List.mem_append_right _ List.mem_cons_self)]

omit [LinearOrder κ] in
theorem BatchScan.kept (h : BatchScan k pending visit I) (hs : I s) (hx : x ∈ pending s) {l : List α}
    (hw : ∀ before after, l = before ++ x :: after → x ∈ pending (visit (before.foldl visit s) x)) : x ∈ pending (l.foldl visit s) := by
  induction l using List.reverseRecOn with
  | nil => exact hx
  | append_singleton l a ih =>
    rw [List.foldl_append, List.foldl_cons, List.foldl_nil]
    by_cases hax : a = x
    · subst hax
      exact hw l [] rfl
    · refine h.others _ a x (h.foldl hs l) (ih fun before after he => ?_) (Ne.symm hax)
      exact hw before (after ++ [a]) (by rw [he, List.append_assoc, List.cons_append])

theorem BatchScan.stays (h : BatchScan k pending visit I) (hs : I s) (hx : x ∈ pending s) (hw : Waits k pending visit n s x) (i : Nat) :
    x ∈ pending ((pass k pending visit n)^[i] s) := by
  induction i with
  | zero => exact hx
  | succ i ih =>
    rw [Function.iterate_succ_apply']
    exact h.kept (h.passes hs i) ih (hw i)

theorem BatchScan.blocked (h : BatchScan k pending visit I) (hs : I s) (hn : waiting.Nodup) (hp : waiting ⊆ pending s)
    (hw : ∀ u ∈ waiting, Waits k pending visit n s u) (hx : ∀ u ∈ waiting, k u < k x) (hlen : n ≤ waiting.length) (i : Nat) :
    x ∉ batch k pending n ((pass k pending visit n)^[i] s) := by
  intro hmem
  obtain ⟨-, hlt⟩ := (mem_first_page (h.keys _ (h.passes hs i))).mp hmem
  have hsub : waiting ⊆ (pending ((pass k pending visit n)^[i] s)).filter fun a => k a < k x := fun u hu =>
    List.mem_filter.mpr ⟨h.stays hs (hp hu) (hw u hu) i, decide_eq_true (hx u hu)⟩
  have := (hn.subperm hsub).length_le
  omega

theorem BatchScan.examined_iff (h : BatchScan k pending visit I) (hs : I s) (hn : waiting.Nodup) (hp : waiting ⊆ pending s)
    (hw : ∀ u ∈ waiting, Waits k pending visit n s u) (hx : ∀ u ∈ waiting, k u < k x) (hpos : 0 < n) (hmem : x ∈ pending s) :
    (∃ i < (waiting.length + 1) ⌈/⌉ n, x ∈ batch k pending n ((pass k pending visit n)^[i] s)) ↔
      ((pending s).filter fun a => k a < k x).length < n := by
  have hfirst : x ∈ batch k pending n s ↔ ((pending s).filter fun a => k a < k x).length < n :=
    (mem_first_page (h.keys s hs)).trans ⟨fun hm => hm.2, fun hl => ⟨hmem, hl⟩⟩
  rw [← hfirst, Nat.ceilDiv_eq_add_pred_div]
  constructor
  · rintro ⟨i, hi, hm⟩
    rcases Nat.lt_or_ge waiting.length n with hlt | hge
    · have hone : (waiting.length + 1 + n - 1) / n ≤ 1 := by
        have : (waiting.length + 1 + n - 1) / n < 2 := Nat.div_lt_of_lt_mul (by omega)
        omega
      have hi0 : i = 0 := by omega
      subst hi0
      exact hm
    · exact absurd hm (h.blocked hs hn hp hw hx hge i)
  · exact fun hm => ⟨0, Nat.div_pos (by omega) hpos, hm⟩

end

section
variable {α : Type*} {state : Nat → α} (Waits : α → Prop) {Done : α → Prop} (measure : α → Nat) {k : Nat}

/-- **The rule of a measure.** What waits is done after more passes than the measure says, when each pass that leaves it waiting
lowers the measure. -/
theorem done_within (hstep : ∀ i, k ≤ i → Waits (state i) → Done (state (i + 1)) ∨ Waits (state (i + 1)) ∧ measure (state (i + 1)) < measure (state i))
    (hdone : ∀ i, k ≤ i → Done (state i) → Done (state (i + 1))) (hwaits : Waits (state k)) {n : Nat} (hn : measure (state k) < n) :
    Done (state (k + n)) := by
  have hprogress : ∀ n, Done (state (k + n)) ∨ Waits (state (k + n)) ∧ measure (state (k + n)) + n ≤ measure (state k) := by
    intro n
    induction n with
    | zero => exact .inr ⟨hwaits, Nat.le_refl _⟩
    | succ n ih =>
      rcases ih with hd | ⟨hw, hle⟩
      · exact .inl (hdone _ (Nat.le_add_right k n) hd)
      · rcases hstep (k + n) (Nat.le_add_right k n) hw with hd | ⟨hw', hlt⟩
        · exact .inl hd
        · refine .inr ⟨hw', ?_⟩
          have heq : k + n + 1 = k + (n + 1) := rfl
          rw [heq] at hlt
          omega
  rcases hprogress n with hd | ⟨-, hle⟩
  · exact hd
  · omega

end

theorem length_lt_of_missing {α : Type*} {l m : List α} {a : α} (hl : l.Nodup) (hsub : l ⊆ m) (ha : a ∈ m) (hnot : a ∉ l) : l.length < m.length :=
  ((List.nodup_cons.mpr ⟨hnot, hl⟩).subperm (List.cons_subset.mpr ⟨ha, hsub⟩)).length_le

end NawaraCore
