import Mathlib

/-!
# Functions that change seldom

A function of time whose changes are a minimal gap apart takes at most two values in a
shorter window.
-/

namespace NawaraCore

section
variable {α : Type*} {f : Int → α} {gap : Int}

def ChangesAt (f : Int → α) (t : Int) : Prop := f (t - 1) ≠ f t

def ChangesApart (f : Int → α) (gap : Int) : Prop :=
  ∀ s t, s < t → ChangesAt f s → ChangesAt f t → gap ≤ t - s

theorem exists_change {s t : Int} (hst : s ≤ t) (h : f s ≠ f t) : ∃ u, s < u ∧ u ≤ t ∧ ChangesAt f u := by
  induction t, hst using Int.leInduction with
  | base => exact absurd rfl h
  | succ t hst ih =>
    by_cases hlast : f t = f (t + 1)
    · obtain ⟨u, hsu, hut, hu⟩ := ih (hlast ▸ h)
      exact ⟨u, hsu, by omega, hu⟩
    · refine ⟨t + 1, by omega, Int.le_refl _, ?_⟩
      unfold ChangesAt
      rwa [show t + 1 - 1 = t by omega]

theorem ChangesApart.between (h : ChangesApart f gap) {s u t : Int} (hsu : s ≤ u) (hut : u ≤ t) (hgap : t - s ≤ gap) :
    f u = f s ∨ f u = f t := by
  by_contra hne
  push Not at hne
  obtain ⟨c, hsc, hcu, hc⟩ := exists_change hsu (Ne.symm hne.1)
  obtain ⟨d, hud, hdt, hd⟩ := exists_change hut hne.2
  have := h c d (by omega) hc hd
  omega

theorem ChangesApart.two_values (h : ChangesApart f gap) {low s t u : Int} (hs : s ∈ Set.Icc low (low + gap))
    (ht : t ∈ Set.Icc low (low + gap)) (hu : u ∈ Set.Icc low (low + gap)) (hne : f s ≠ f t) : f u = f s ∨ f u = f t := by
  wlog hst : s ≤ t generalizing s t
  · exact (this ht hs hne.symm (by omega)).symm
  obtain ⟨hs₁, hs₂⟩ := hs
  obtain ⟨ht₁, ht₂⟩ := ht
  obtain ⟨hu₁, hu₂⟩ := hu
  rcases Int.lt_or_le u s with hus | hsu
  · rcases h.between (s := u) (u := s) (t := t) (by omega) hst (by omega) with he | he
    · exact .inl he.symm
    · exact absurd he hne
  · rcases Int.lt_or_le t u with htu | hut
    · rcases h.between (s := s) (u := t) (t := u) hst (by omega) (by omega) with he | he
      · exact absurd he.symm hne
      · exact .inr he.symm
    · exact h.between hsu hut (by omega)

end

end NawaraCore
