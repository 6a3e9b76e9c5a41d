import Mathlib.Data.List.Basic

/-!
# Fallible computations

A successful sequence of fallible steps is taken apart into its steps, and a
result that no guard gives has passed every guard.
-/

namespace NawaraCore

universe u v

section
variable {ε : Type u} {α β γ : Type v}

theorem bind_eq_ok {x : Except ε α} {f : α → Except ε β} {b : β} :
    (x >>= f) = .ok b ↔ ∃ a, x = .ok a ∧ f a = .ok b := by
  cases x with
  | error e => simp [bind, Except.bind]
  | ok a => simp [bind, Except.bind]

theorem passed {p : Prop} [Decidable p] {a b c : α} (h : (if p then a else b) = c) (hne : a ≠ c) : ¬ p ∧ b = c := by
  by_cases hp : p
  · rw [if_pos hp] at h; exact absurd h hne
  · rw [if_neg hp] at h; exact ⟨hp, h⟩

variable {a : α}

theorem guard_ok {p : Prop} [Decidable p] {e : ε} {x : Except ε α}
    (h : (if p then .error e else x) = .ok a) : ¬ p ∧ x = .ok a :=
  passed h nofun

theorem guards_ok {p q : Prop} [Decidable p] [Decidable q] {e e' : ε} {x : Except ε α}
    (h : (if p then .error e else if q then .error e' else x) = .ok a) : ¬ p ∧ ¬ q ∧ x = .ok a :=
  (guard_ok h).imp_right guard_ok

variable {f : α → β}

theorem map_eq_ok {x : Except ε α} {b : β} : x.map f = .ok b ↔ ∃ a, x = .ok a ∧ f a = b := by
  cases x with
  | error e => simp [Except.map]
  | ok a => simp [Except.map]

theorem map_returns {x : Except ε α} : (∃ b, x.map f = .ok b) ↔ ∃ a, x = .ok a := by
  cases x with
  | error e => simp [Except.map]
  | ok a => simp [Except.map]

theorem map_fst_ok {x : Except ε (α × γ)} (h : x.map Prod.fst = .ok a) : ∃ b, x = .ok (a, b) := by
  obtain ⟨⟨a', b⟩, hx, rfl⟩ := map_eq_ok.mp h
  exact ⟨b, hx⟩

end

theorem mapM_eq_ok {α β : Type v} {f : α → Except ε β} {xs : List α} {ys : List β} (h : xs.mapM f = .ok ys) :
    List.Forall₂ (fun x y => f x = .ok y) xs ys := by
  induction xs generalizing ys with
  | nil =>
    cases h
    exact .nil
  | cons x xs ih =>
    rw [List.mapM_cons] at h
    obtain ⟨y, hy, h⟩ := bind_eq_ok.mp h
    obtain ⟨zs, hzs, h⟩ := bind_eq_ok.mp h
    cases h
    exact .cons hy (ih hzs)

section
variable {ε : Type u} {α β : Type v} {P : β → Prop} {Q : α → Prop} {x y : Except ε β} {p : Prop} [Decidable p]

/-- Every result of the computation meets `P`. -/
def Yields (P : β → Prop) (x : Except ε β) : Prop := ∀ b, x = .ok b → P b

theorem Yields.error {e : ε} : Yields P (.error e) := nofun

theorem Yields.ok {b : β} (h : P b) : Yields (ε := ε) P (.ok b) := by intro c hc; cases hc; exact h

theorem Yields.guard {e : ε} (h : ¬ p → Yields P x) : Yields P (if p then .error e else x) := by
  by_cases hp : p
  · rw [if_pos hp]; exact .error
  · rw [if_neg hp]; exact h hp

theorem Yields.ite (ht : p → Yields P x) (hf : ¬ p → Yields P y) : Yields P (if p then x else y) := by
  by_cases hp : p
  · rw [if_pos hp]; exact ht hp
  · rw [if_neg hp]; exact hf hp

theorem Yields.bind {x : Except ε α} {f : α → Except ε β} (hx : Yields Q x) (hf : ∀ a, Q a → Yields P (f a)) : Yields P (x >>= f) := by
  intro b h
  obtain ⟨a, ha, hb⟩ := bind_eq_ok.mp h
  exact hf a (hx a ha) b hb

end

section
variable {ε : Type u} {α : Type u} {β : Type v} {f : β → α → Except ε β} {P : β → Prop} {xs : List α} {b c : β}

theorem foldlM_invariant (hf : ∀ b a c, a ∈ xs → P b → f b a = .ok c → P c) (hb : P b)
    (h : xs.foldlM f b = .ok c) : P c := by
  induction xs generalizing b with
  | nil => cases h; exact hb
  | cons x xs ih =>
    obtain ⟨d, hd, h⟩ := bind_eq_ok.mp h
    exact ih (fun b a c ha => hf b a c (List.mem_cons_of_mem _ ha)) (hf b x d List.mem_cons_self hb hd) h

theorem foldlM_reaches {Q : α → β → Prop} (hset : ∀ b a c, a ∈ xs → f b a = .ok c → Q a c)
    (hkeep : ∀ b a c x, f b a = .ok c → Q x b → Q x c) (h : xs.foldlM f b = .ok c) : ∀ a ∈ xs, Q a c := by
  induction xs generalizing b with
  | nil => intro a ha; cases ha
  | cons x xs ih =>
    obtain ⟨d, hd, hrest⟩ := bind_eq_ok.mp h
    intro a ha
    rcases List.mem_cons.mp ha with rfl | ha
    · exact foldlM_invariant (P := Q a) (fun b y c _ hq hy => hkeep b y c a hy hq)
        (hset b a d List.mem_cons_self hd) hrest
    · exact ih (fun b y c hy => hset b y c (List.mem_cons_of_mem _ hy)) hrest a ha

theorem foldlM_succeeds (hf : ∀ b a, a ∈ xs → P b → ∃ c, f b a = .ok c ∧ P c) (hb : P b) :
    ∃ c, xs.foldlM f b = .ok c := by
  induction xs generalizing b with
  | nil => exact ⟨b, rfl⟩
  | cons x xs ih =>
    obtain ⟨d, hd, hP⟩ := hf b x List.mem_cons_self hb
    obtain ⟨c, hc⟩ := ih (fun b a ha => hf b a (List.mem_cons_of_mem _ ha)) hP
    exact ⟨c, bind_eq_ok.mpr ⟨d, hd, hc⟩⟩

end

end NawaraCore
