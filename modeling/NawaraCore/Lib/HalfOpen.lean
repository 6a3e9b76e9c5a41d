import Mathlib.Data.Int.Interval
import Mathlib.Data.List.Pairwise
import Mathlib.Order.Interval.Finset.Basic
import Mathlib.Tactic

/-!
# Lists of half-open intervals

A list of half-open intervals covers a set of instants. A list whose intervals
are proper and in order covers each instant once, so over the integers its total
size counts the covered instants, and the set operations on covered sets become
equations between sizes.
-/

namespace NawaraCore

structure HalfOpen (α : Type*) where
  start : α
  stop : α

namespace HalfOpen

section
variable {α : Type*} [LinearOrder α]

def Has (i : HalfOpen α) (x : α) : Prop := i.start ≤ x ∧ x < i.stop

instance (i : HalfOpen α) (x : α) : Decidable (i.Has x) := inferInstanceAs (Decidable (_ ∧ _))

def Covers (l : List (HalfOpen α)) (x : α) : Prop := ∃ i ∈ l, i.Has x

instance (l : List (HalfOpen α)) (x : α) : Decidable (Covers l x) :=
  inferInstanceAs (Decidable (∃ i ∈ l, i.Has x))

def Proper (l : List (HalfOpen α)) : Prop := ∀ i ∈ l, i.start < i.stop

def Apart (l : List (HalfOpen α)) : Prop := l.Pairwise fun a b => a.stop ≤ b.start

def Spaced (l : List (HalfOpen α)) : Prop := l.Pairwise fun a b => a.stop < b.start

@[simp] theorem covers_nil (x : α) : ¬ Covers [] x := by
  rintro ⟨i, hi, _⟩
  cases hi

@[simp] theorem covers_cons (i : HalfOpen α) (l : List (HalfOpen α)) (x : α) :
    Covers (i :: l) x ↔ i.Has x ∨ Covers l x := by
  simp [Covers]

@[simp] theorem covers_append (l m : List (HalfOpen α)) (x : α) :
    Covers (l ++ m) x ↔ Covers l x ∨ Covers m x := by
  simp [Covers, or_and_right, exists_or]

theorem covers_perm {l m : List (HalfOpen α)} (h : l.Perm m) (x : α) : Covers l x ↔ Covers m x := by
  unfold Covers
  constructor
  · rintro ⟨i, hi, hx⟩; exact ⟨i, h.mem_iff.mp hi, hx⟩
  · rintro ⟨i, hi, hx⟩; exact ⟨i, h.mem_iff.mpr hi, hx⟩

variable {l : List (HalfOpen α)}

theorem covers_of_mem {i : HalfOpen α} (hi : i ∈ l) {x : α} (hx : i.Has x) :
    Covers l x := ⟨i, hi, hx⟩

@[simp] theorem proper_nil : Proper ([] : List (HalfOpen α)) := by simp [Proper]

@[simp] theorem proper_cons (i : HalfOpen α) (l : List (HalfOpen α)) :
    Proper (i :: l) ↔ i.start < i.stop ∧ Proper l := by
  simp [Proper]

@[simp] theorem apart_nil : Apart ([] : List (HalfOpen α)) := List.Pairwise.nil

@[simp] theorem apart_cons (i : HalfOpen α) (l : List (HalfOpen α)) :
    Apart (i :: l) ↔ (∀ j ∈ l, i.stop ≤ j.start) ∧ Apart l := List.pairwise_cons

@[simp] theorem spaced_nil : Spaced ([] : List (HalfOpen α)) := List.Pairwise.nil

@[simp] theorem spaced_cons (i : HalfOpen α) (l : List (HalfOpen α)) :
    Spaced (i :: l) ↔ (∀ j ∈ l, i.stop < j.start) ∧ Spaced l := List.pairwise_cons

theorem Spaced.apart (h : Spaced l) : Apart l :=
  List.Pairwise.imp (fun h => le_of_lt h) h

theorem le_of_covers {b x : α} (hb : ∀ j ∈ l, b ≤ j.start) (hx : Covers l x) :
    b ≤ x := by
  obtain ⟨j, hj, h⟩ := hx
  exact (hb j hj).trans h.1

end

noncomputable def points (l : List (HalfOpen ℤ)) : Finset ℤ :=
  l.foldr (fun i s => Finset.Ico i.start i.stop ∪ s) ∅

def size (l : List (HalfOpen ℤ)) : ℤ := (l.map fun i => i.stop - i.start).sum

@[simp] theorem size_nil : size [] = 0 := rfl

@[simp] theorem mem_points {l : List (HalfOpen ℤ)} {x : ℤ} : x ∈ points l ↔ Covers l x := by
  induction l with
  | nil => simp [points]
  | cons i l ih =>
    simp only [points, List.foldr_cons, Finset.mem_union, Finset.mem_Ico, covers_cons, Has] at ih ⊢
    rw [ih]

@[simp] theorem size_cons (i : HalfOpen ℤ) (l : List (HalfOpen ℤ)) :
    size (i :: l) = (i.stop - i.start) + size l := by simp [size]

theorem points_cons (i : HalfOpen ℤ) (l : List (HalfOpen ℤ)) :
    points (i :: l) = Finset.Ico i.start i.stop ∪ points l := rfl

theorem size_eq_card : ∀ {l : List (HalfOpen ℤ)}, Proper l → Apart l → size l = (points l).card
  | [], _, _ => by simp [points]
  | i :: l, hp, ha => by
    rw [proper_cons] at hp
    rw [apart_cons] at ha
    have hd : Disjoint (Finset.Ico i.start i.stop) (points l) := by
      rw [Finset.disjoint_left]
      intro x hx hl
      have := le_of_covers ha.1 (mem_points.mp hl)
      have := (Finset.mem_Ico.mp hx).2
      omega
    rw [points_cons, Finset.card_union_of_disjoint hd, size_cons, size_eq_card hp.2 ha.2, Int.card_Ico]
    have := Int.toNat_of_nonneg (sub_nonneg.mpr hp.1.le)
    push_cast
    omega

end HalfOpen

end NawaraCore
