import Mathlib.Algebra.BigOperators.Group.List.Basic
import Mathlib.Algebra.GroupWithZero.Nat
import Mathlib.Data.List.Induction

/-!
# Filling parts in order

Items of some width go into parts of one capacity, in order and whole. Filling each part as
far as the next item fits needs no more parts than any other way.
-/

namespace NawaraCore.NextFit

/-- Where an item ends that is put at `pos`, or at the next part where it does not fit into that of `pos`. -/
def place (cap pos w : Nat) : Nat := if pos % cap + w ≤ cap then pos + w else (pos / cap + 1) * cap + w

def filled (cap pos : Nat) (ws : List Nat) : Nat := ws.foldl (place cap) pos

def Packs (cap : Nat) (ws : List Nat) (n : Nat) : Prop :=
  ∃ parts : List (List Nat), parts.flatten = ws ∧ parts.length = n ∧ ∀ p ∈ parts, p.sum ≤ cap

section
variable {cap pos pos' w n s : Nat} {ws : List Nat}

theorem place_mono (h : pos ≤ pos') : place cap pos w ≤ place cap pos' w := by
  have hpos := Nat.div_add_mod' pos cap
  have hpos' := Nat.div_add_mod' pos' cap
  unfold place
  rcases Nat.lt_or_eq_of_le (Nat.div_le_div_right (c := cap) h) with hq | hq
  · have hnext : (pos / cap + 1) * cap ≤ pos' / cap * cap := Nat.mul_le_mul_right cap hq
    have hstep := Nat.add_mul (pos' / cap) 1 cap
    have hself := Nat.add_mul (pos / cap) 1 cap
    split <;> split <;> omega
  · rw [hq] at hpos ⊢
    have hstep := Nat.add_mul (pos' / cap) 1 cap
    split <;> split <;> omega

theorem filled_mono (h : pos ≤ pos') : filled cap pos ws ≤ filled cap pos' ws := by
  induction ws generalizing pos pos' with
  | nil => exact h
  | cons w ws ih => exact ih (place_mono h)

theorem add_le_place (hcap : 0 < cap) (pos w : Nat) : pos + w ≤ place cap pos w := by
  have hmod := Nat.mod_lt pos hcap
  have hpos := Nat.div_add_mod' pos cap
  have hstep := Nat.add_mul (pos / cap) 1 cap
  unfold place
  split <;> omega

theorem sum_le_filled (hcap : 0 < cap) (pos : Nat) (ws : List Nat) : pos + ws.sum ≤ filled cap pos ws := by
  induction ws generalizing pos with
  | nil => exact Nat.le_refl _
  | cons w ws ih =>
    have hplace := add_le_place hcap pos w
    have hrest := ih (place cap pos w)
    rw [List.sum_cons]
    show _ ≤ filled cap (place cap pos w) ws
    omega

/-- Within a part nothing is left empty. -/
theorem filled_part (h : s + ws.sum ≤ cap) : filled cap (cap * n + s) ws = cap * n + (s + ws.sum) := by
  induction ws generalizing s with
  | nil => rfl
  | cons w ws ih =>
    rw [List.sum_cons] at h ⊢
    have hplace : place cap (cap * n + s) w = cap * n + (s + w) := by
      unfold place
      rw [Nat.mul_add_mod]
      have := Nat.mod_le s cap
      rw [if_pos (by omega)]
      omega
    show filled cap (place cap (cap * n + s) w) ws = _
    rw [hplace, ih (by omega)]
    omega

theorem filled_le_parts {parts : List (List Nat)} (hparts : ∀ p ∈ parts, p.sum ≤ cap) (h : pos ≤ cap * n) :
    filled cap pos parts.flatten ≤ cap * (n + parts.length) := by
  induction parts generalizing pos n with
  | nil => exact h
  | cons p parts ih =>
    have hp := hparts p List.mem_cons_self
    have hpart := filled_part (n := n) (s := 0) (by omega : 0 + p.sum ≤ cap)
    have hend : filled cap pos p ≤ cap * (n + 1) := by
      have : filled cap pos p ≤ filled cap (cap * n) p := filled_mono h
      rw [Nat.mul_succ]
      rw [Nat.add_zero] at hpart
      omega
    rw [List.flatten_cons, filled, List.foldl_append, List.length_cons, Nat.add_comm parts.length, ← Nat.add_assoc]
    exact ih (fun q hq => hparts q (List.mem_cons_of_mem p hq)) hend

/-- The parts as they are filled, the last one open. -/
theorem filled_parts (hws : ∀ w ∈ ws, 0 < w ∧ w ≤ cap) : ws = [] ∨ ∃ (full : List (List Nat)) (last : List Nat),
    (full ++ [last]).flatten = ws ∧ (∀ p ∈ full ++ [last], p.sum ≤ cap) ∧ 0 < last.sum ∧ filled cap 0 ws = cap * full.length + last.sum := by
  induction ws using List.reverseRecOn with
  | nil => exact .inl rfl
  | append_singleton ws w ih =>
    obtain ⟨hpos, hcap⟩ := hws w (by simp)
    right
    rcases ih fun x hx => hws x (List.mem_append_left _ hx) with rfl | ⟨full, last, rfl, hsum, hlast, hfilled⟩
    · refine ⟨[], [w], rfl, by simpa using hcap, by simpa using hpos, ?_⟩
      simpa using filled_part (n := 0) (s := 0) (by simpa using hcap : 0 + [w].sum ≤ cap)
    · have hle := hsum last (by simp)
      have hend : filled cap 0 ((full ++ [last]).flatten ++ [w]) = place cap (cap * full.length + last.sum) w := by
        rw [filled, List.foldl_append]
        exact congrArg (place cap · w) hfilled
      by_cases hfit : last.sum + w ≤ cap
      · refine ⟨full, last ++ [w], by simp, ?_, by simp; omega, ?_⟩
        · intro p hp
          rcases List.mem_append.mp hp with hp | hp
          · exact hsum p (List.mem_append_left _ hp)
          · rw [List.mem_singleton.mp hp]
            simpa using hfit
        · rw [hend]
          simpa [filled] using filled_part (n := full.length) (by simpa using hfit : last.sum + [w].sum ≤ cap)
      · refine ⟨full ++ [last], [w], by simp, ?_, by simpa using hpos, ?_⟩
        · intro p hp
          rcases List.mem_append.mp hp with hp | hp
          · exact hsum p hp
          · rw [List.mem_singleton.mp hp]
            simpa using hcap
        · rw [hend, List.length_append, List.length_singleton, List.sum_singleton, Nat.mul_succ]
          unfold place
          rcases Nat.lt_or_eq_of_le hle with hlt | heq
          · rw [Nat.mul_add_mod, Nat.mod_eq_of_lt hlt, if_neg (by omega), Nat.mul_add_div (by omega), Nat.div_eq_of_lt hlt, Nat.add_zero,
              Nat.succ_mul, Nat.mul_comm]
          · rw [heq, ← Nat.mul_succ, Nat.mul_mod_right, if_pos (by omega)]

/-- **Filling in order is best.** -/
theorem packs_iff (hws : ∀ w ∈ ws, 0 < w ∧ w ≤ cap) : Packs cap ws n ↔ filled cap 0 ws ≤ cap * n := by
  constructor
  · rintro ⟨parts, rfl, rfl, hparts⟩
    simpa using filled_le_parts (n := 0) hparts (Nat.zero_le _)
  · intro h
    rcases filled_parts hws with rfl | ⟨full, last, rfl, hsum, hlast, hfilled⟩
    · exact ⟨List.replicate n [], by simp, List.length_replicate, fun p hp => by simp [List.eq_of_mem_replicate hp]⟩
    · have hn : full.length < n := by
        rw [hfilled] at h
        exact Nat.lt_of_mul_lt_mul_left (a := cap) (by omega)
      refine ⟨(full ++ [last]) ++ List.replicate (n - (full.length + 1)) [], by simp, by simp; omega, fun p hp => ?_⟩
      rcases List.mem_append.mp hp with hp | hp
      · exact hsum p hp
      · simp [List.eq_of_mem_replicate hp]

end

end NawaraCore.NextFit
