import Mathlib.Logic.Relation

/-!
# Runs of a transition system

A system is a set of initial states and a step relation. What holds initially and
is preserved by every step holds in every reachable state.
-/

namespace NawaraCore

section
variable {σ : Type*}

inductive Reachable (init : σ → Prop) (step : σ → σ → Prop) : σ → Prop
  | init {s : σ} (h : init s) : Reachable init step s
  | step {s t : σ} (hs : Reachable init step s) (h : step s t) : Reachable init step t

variable {init : σ → Prop} {step : σ → σ → Prop}

theorem Reachable.invariant {P : σ → Prop} (h0 : ∀ s, init s → P s)
    (hstep : ∀ s t, Reachable init step s → P s → step s t → P t) {s : σ} (h : Reachable init step s) :
    P s := by
  induction h with
  | init h => exact h0 _ h
  | step hs h ih => exact hstep _ _ hs ih h

end

/-! ## Runs as lists of actions -/

section
variable {σ τ α : Type*} {step : σ → α → σ} {ok : σ → α → Prop}

/-- Every action meets `ok` in the state it is taken in. -/
def Along (step : σ → α → σ) (ok : σ → α → Prop) : σ → List α → Prop
  | _, [] => True
  | s, a :: as => ok s a ∧ Along step ok (step s a) as

variable {I : σ → Prop}

theorem Along.invariant (hI : ∀ s a, I s → ok s a → I (step s a)) :
    ∀ (as : List α) {s : σ}, I s → Along step ok s as → I (as.foldl step s)
  | [], _, h, _ => h
  | a :: as, s, h, ha => by
    rw [List.foldl_cons]
    exact Along.invariant hI as (hI s a h ha.1) ha.2

theorem Along.last : ∀ (as : List α) {s : σ} {a : α}, Along step ok s (as ++ [a]) → ok (as.foldl step s) a
  | [], _, _, h => h.1
  | _ :: as, _, _, h => Along.last as h.2

variable {ok' : σ → α → Prop}

theorem Along.imp (hI : ∀ s a, I s → ok s a → I (step s a)) (h : ∀ s a, I s → ok s a → ok' s a) :
    ∀ (as : List α) {s : σ}, I s → Along step ok s as → Along step ok' s as
  | [], _, _, _ => trivial
  | a :: as, s, hs, ⟨ha, has⟩ => ⟨h s a hs ha, Along.imp hI h as (hI s a hs ha) has⟩

theorem Along.congr (hI : ∀ s a, I s → ok s a → I (step s a)) (h : ∀ s a, I s → (ok' s a ↔ ok s a))
    (as : List α) {s : σ} (hs : I s) : Along step ok' s as ↔ Along step ok s as :=
  ⟨Along.imp (fun s a hs ha => hI s a hs ((h s a hs).mp ha)) (fun s a hs => (h s a hs).mp) as hs, Along.imp hI (fun s a hs => (h s a hs).mpr) as hs⟩

/-- **The detection rule.** A predicate that each step keeps exactly when the action meets `ok` holds after a run exactly when
every action met it. -/
theorem Along.detects {I P : σ → Prop} (hI : ∀ s a, I s → I (step s a)) (hP : ∀ s a, I s → (P (step s a) ↔ P s ∧ ok s a)) :
    ∀ (as : List α) (s : σ), I s → (P (as.foldl step s) ↔ P s ∧ Along step ok s as)
  | [], s, _ => by simp [Along]
  | a :: as, s, h => by
    rw [List.foldl_cons, Along.detects hI hP as (step s a) (hI s a h), hP s a h, and_assoc]
    rfl

/-- **The rule of the laws along a run.** A law that a step keeps exactly when the action meets `ok` holds in every state of a run
exactly when every action met it. -/
theorem Along.everywhere {I L : σ → Prop} (hI : ∀ s a, I s → I (step s a)) (hL : ∀ s a, I s → L s → (L (step s a) ↔ ok s a)) :
    ∀ (as : List α) {s : σ}, I s → L s → ((∀ n, L ((as.take n).foldl step s)) ↔ Along step ok s as)
  | [], s, _, hs => by simpa [Along] using hs
  | a :: as, s, h, hs => by
    constructor
    · intro hall
      have hok : ok s a := (hL s a h hs).mp (hall 1)
      refine ⟨hok, (Along.everywhere hI hL as (hI s a h) ((hL s a h hs).mpr hok)).mp fun n => ?_⟩
      exact hall (n + 1)
    · rintro ⟨hok, has⟩ n
      cases n with
      | zero => exact hs
      | succ n => exact (Along.everywhere hI hL as (hI s a h) ((hL s a h hs).mpr hok)).mpr has n

theorem Along.filter {step' : τ → α → τ} {R : σ → τ → Prop} {p : α → Bool}
    (hstep : ∀ s t a, p a → R s t → R (step s a) (step' t a))
    (hstutter : ∀ s t a, p a = false → ok s a → R s t → R (step s a) t) :
    ∀ {as : List α} {s : σ} {t : τ}, Along step ok s as → R s t → R (as.foldl step s) ((as.filter p).foldl step' t)
  | [], _, _, _, hr => hr
  | a :: as, s, t, h, hr => by
    cases hp : p a with
    | true =>
      rw [List.filter_cons_of_pos hp]
      exact Along.filter hstep hstutter h.2 (hstep s t a hp hr)
    | false =>
      rw [List.filter_cons_of_neg (by simp [hp])]
      exact Along.filter hstep hstutter h.2 (hstutter s t a hp h.1 hr)

end

end NawaraCore
