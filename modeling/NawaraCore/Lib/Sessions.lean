import Mathlib.Logic.Function.Basic

/-!
# Sessions beside a committed state

Transactions run in sessions, each with its pending writes and locks beside the committed
state. An invariant is a condition on the committed state, one on each session beside it, and
one on each two sessions; a step of one session must keep what the others rely on.
-/

namespace NawaraCore

section
variable {ι σ π : Type*} {I I' : σ → Prop} {A : σ → ι → π → Prop} {C : π → π → Prop} {db db' : σ} {session : ι → π} {t : ι} {x : π}

structure SessionsInv (I : σ → Prop) (A : σ → ι → π → Prop) (C : π → π → Prop) (db : σ) (session : ι → π) : Prop where
  committed : I db
  each : ∀ t, A db t (session t)
  pair : ∀ t u, t ≠ u → C (session t) (session u)

variable [DecidableEq ι]

theorem SessionsInv.step (h : SessionsInv I A C db session) (hI : I' db') (hA : A db' t x) (hO : ∀ u, u ≠ t → A db' u (session u))
    (hC : ∀ u, u ≠ t → C x (session u) ∧ C (session u) x) : SessionsInv I' A C db' (Function.update session t x) where
  committed := hI
  each u := by
    by_cases hu : u = t
    · subst hu
      simpa using hA
    · rw [Function.update_of_ne hu]
      exact hO u hu
  pair u v hne := by
    by_cases hu : u = t
    · subst hu
      rw [Function.update_self, Function.update_of_ne (Ne.symm hne)]
      exact (hC v (Ne.symm hne)).1
    · rw [Function.update_of_ne hu]
      by_cases hv : v = t
      · subst hv
        rw [Function.update_self]
        exact (hC u hne).2
      · rw [Function.update_of_ne hv]
        exact h.pair u v hne

theorem SessionsInv.statement (h : SessionsInv I A C db session) (hA : A db t x) (hC : ∀ u, u ≠ t → C x (session u) ∧ C (session u) x) :
    SessionsInv I A C db (Function.update session t x) :=
  h.step h.committed hA (fun u _ => h.each u) hC

end

end NawaraCore
