import Mathlib.Data.List.Perm.Basic

/-!
# Folds that absorb

A step that commutes with the others and changes nothing the second time makes a fold
depend on which elements there are, not on their order or number.
-/

namespace NawaraCore

section
variable {α β : Type*} {f : β → α → β} {xs ys : List α} {b : β} {x : α}

theorem foldl_comm_step (hc : ∀ b, ∀ y ∈ xs, f (f b x) y = f (f b y) x) : f (xs.foldl f b) x = xs.foldl f (f b x) := by
  induction xs generalizing b with
  | nil => rfl
  | cons y xs ih =>
    rw [List.foldl_cons, List.foldl_cons, ih fun b z hz => hc b z (List.mem_cons_of_mem y hz)]
    rw [hc b y List.mem_cons_self]

section
variable (hc : ∀ b, ∀ x ∈ xs, ∀ y ∈ xs, f (f b x) y = f (f b y) x)
include hc

section
variable (hi : ∀ b x, f (f b x) x = f b x)
include hi

theorem foldl_absorbed
    (hx : x ∈ xs) : f (xs.foldl f b) x = xs.foldl f b := by
  induction xs generalizing b with
  | nil => cases hx
  | cons z xs ih =>
    have hcz : ∀ b, ∀ x ∈ xs, ∀ y ∈ xs, f (f b x) y = f (f b y) x :=
      fun b x hx y hy => hc b x (List.mem_cons_of_mem z hx) y (List.mem_cons_of_mem z hy)
    rw [List.foldl_cons]
    rcases List.mem_cons.mp hx with rfl | hx
    · rw [foldl_comm_step fun b y hy => hc b x List.mem_cons_self y (List.mem_cons_of_mem x hy), hi]
    · exact ih hcz hx

theorem foldl_append_absorbed
    (hs : ∀ y ∈ ys, y ∈ xs) : (xs ++ ys).foldl f b = xs.foldl f b := by
  rw [List.foldl_append]
  induction ys with
  | nil => rfl
  | cons y ys ih =>
    rw [List.foldl_cons, foldl_absorbed hc hi (hs y List.mem_cons_self)]
    exact ih fun z hz => hs z (List.mem_cons_of_mem y hz)

theorem foldl_eq_of_mem_iff
    (hs : ∀ x, x ∈ xs ↔ x ∈ ys) : xs.foldl f b = ys.foldl f b := by
  have hcy : ∀ b, ∀ x ∈ ys, ∀ y ∈ ys, f (f b x) y = f (f b y) x :=
    fun b x hx y hy => hc b x ((hs x).mpr hx) y ((hs y).mpr hy)
  have hall : ∀ x ∈ xs ++ ys, x ∈ xs := by
    intro x hx
    rcases List.mem_append.mp hx with hx | hx
    · exact hx
    · exact (hs x).mpr hx
  calc xs.foldl f b = (xs ++ ys).foldl f b := (foldl_append_absorbed hc hi fun y hy => (hs y).mpr hy).symm
    _ = (ys ++ xs).foldl f b :=
        List.perm_append_comm.foldl_eq' (fun x hx y hy z => hc z x (hall x hx) y (hall y hy)) b
    _ = ys.foldl f b := foldl_append_absorbed hcy hi fun x hx => (hs x).mp hx

end

end

end

end NawaraCore
