import NawaraCore.Lib.Runs
import NawaraCore.Lib.Sessions

/-!
# Interleaved transactions

How a session begins, what its next statement does beside the others, and what its commit
publishes. Sessions are numbered in the order they begin, and any number of them may be open.
-/

namespace NawaraCore

inductive Reply (π : Type*)
  | wait
  | refused
  | next (x : π)

/-- The transactions of a program: `δ` is the committed state, `π` a session, `ω` an operation and `ε` what else happens. -/
structure Transactions (δ π ω ε : Type*) where
  start : δ → Nat → ω → Option π
  /-- The next statement, which may ask whether another session meets a condition. -/
  exec : δ → ((π → Bool) → Bool) → Nat → π → Reply π
  /-- What the end of the transaction publishes, when it has come, and what the session does after it. -/
  commit : δ → Nat → π → Option (δ × Option π)
  elapse : δ → ε → δ

namespace Transactions

structure State (δ π : Type*) where
  db : δ
  fresh : Nat
  session : Nat → Option π

inductive Action (ω ε : Type*)
  | start (op : ω)
  | exec (n : Nat)
  | abort (n : Nat)
  | commit (n : Nat)
  | elapse (e : ε)

section
variable {δ π ω ε : Type*}

def State.new (db : δ) : State δ π := ⟨db, 0, fun _ => none⟩

def State.others (s : State δ π) (n : Nat) (p : π → Bool) : Bool := (List.range s.fresh).any fun m => m ≠ n && (s.session m).any p

def State.set (s : State δ π) (n : Nat) (x : Option π) : State δ π := { s with session := Function.update s.session n x }

variable (P : Transactions δ π ω ε)

def step (s : State δ π) : Action ω ε → State δ π
  | .start op =>
    { s with
      fresh := s.fresh + 1
      session := Function.update s.session s.fresh (P.start s.db s.fresh op) }
  | .exec n => match s.session n with
    | none => s
    | some x => match P.exec s.db (s.others n) n x with
      | .wait => s
      | .refused => s.set n none
      | .next y => s.set n (some y)
  | .abort n => s.set n none
  | .commit n => match s.session n with
    | none => s
    | some x => match P.commit s.db n x with
      | none => s
      | some (db, y) =>
        { s with
          db
          session := Function.update s.session n y }
  | .elapse e => { s with db := P.elapse s.db e }

def run (db : δ) (actions : List (Action ω ε)) : State δ π := actions.foldl P.step (.new db)

/-- The commits of an action meet `ok`. -/
def Meets (ok : δ → Nat → π → Prop) (s : State δ π) : Action ω ε → Prop
  | .commit n => ∀ x, s.session n = some x → (P.commit s.db n x).isSome → ok s.db n x
  | _ => True

/-! ## Invariants -/

/-- What the statements of a program keep: `I` of the committed state, `A` of a session beside it, `C` of two sessions. -/
structure Keeps (I : Nat → δ → Prop) (A : δ → Nat → π → Prop) (C : π → π → Prop) (ok : δ → Nat → π → Prop) : Prop where
  symm : ∀ x y, C x y → C y x
  fresh : ∀ n db, I n db → I (n + 1) db
  start : ∀ n db op x, I n db → P.start db n op = some x → A db n x ∧ ∀ y, C x y
  exec : ∀ n db others m x y, I n db → A db m x → P.exec db others m x = .next y →
    A db m y ∧ ∀ z, (∀ p, others p = false → p z = false) → C x z → C y z
  commit : ∀ n db m x db' y, m < n → I n db → A db m x → ok db m x → P.commit db m x = some (db', y) →
    I n db' ∧ (∀ z, y = some z → A db' m z ∧ ∀ w, C z w) ∧ ∀ k z, k ≠ m → A db k z → C z x → A db' k z
  elapse : ∀ n db e, I n db → I n (P.elapse db e) ∧ ∀ m x, A db m x → A (P.elapse db e) m x

structure Inv (I : Nat → δ → Prop) (A : δ → Nat → π → Prop) (C : π → π → Prop) (s : State δ π) : Prop where
  sessions : SessionsInv (I s.fresh) (fun db m o => ∀ x, o = some x → A db m x) (fun o o' => ∀ x y, o = some x → o' = some y → C x y) s.db s.session
  bounded : ∀ m x, s.session m = some x → m < s.fresh

variable {P} {I : Nat → δ → Prop} {A : δ → Nat → π → Prop} {C : π → π → Prop} {ok : δ → Nat → π → Prop} {s : State δ π} {n : Nat} {x : π}

theorem Inv.committed (h : Inv I A C s) : I s.fresh s.db := h.sessions.committed

theorem Inv.others (h : Inv I A C s) {p : π → Bool} (hp : s.others n p = false) {m : Nat} (hm : m ≠ n) (hx : s.session m = some x) : p x = false := by
  unfold State.others at hp
  have hno := List.any_eq_false.mp hp m (List.mem_range.mpr (h.bounded m x hx))
  simpa [hm, hx] using hno

theorem others_start (s : State δ π) (x : Option π) (p : π → Bool) :
    State.others ⟨s.db, s.fresh + 1, Function.update s.session s.fresh x⟩ s.fresh p = s.others s.fresh p := by
  unfold State.others
  dsimp only
  rw [List.range_succ, List.any_append, List.any_cons, List.any_nil, Bool.or_false]
  have hself : (decide (s.fresh ≠ s.fresh) && (Function.update s.session s.fresh x s.fresh).any p) = false := by simp
  rw [hself, Bool.or_false]
  refine Bool.eq_iff_iff.mpr ?_
  rw [List.any_eq_true, List.any_eq_true]
  refine exists_congr fun m => and_congr_right fun hm => ?_
  rw [Function.update_of_ne (Nat.ne_of_lt (List.mem_range.mp hm))]

variable {db : δ} {y : Option π}

theorem Inv.session (h : Inv I A C s) (hsymm : ∀ x y, C x y → C y x) {fresh : Nat} (hf : s.fresh ≤ fresh) (hn : n < fresh)
    (hI : I fresh db) (hA : ∀ z, y = some z → A db n z) (hO : ∀ m z, m ≠ n → s.session m = some z → A db m z)
    (hC : ∀ z, y = some z → ∀ m w, m ≠ n → s.session m = some w → C z w) : Inv I A C ⟨db, fresh, Function.update s.session n y⟩ where
  sessions := by
    refine h.sessions.step hI hA (fun m hm z hz => hO m z hm hz) fun m hm => ⟨fun z w hz hw => hC z hz m w hm hw, fun w z hw hz => ?_⟩
    exact hsymm _ _ (hC z hz m w hm hw)
  bounded m z hz := by
    dsimp only at hz
    by_cases hm : m = n
    · exact hm ▸ hn
    · rw [Function.update_of_ne hm] at hz
      exact Nat.lt_of_lt_of_le (h.bounded m z hz) hf

theorem Inv.clear (h : Inv I A C s) (hsymm : ∀ x y, C x y → C y x) : Inv I A C (s.set n none) := by
  by_cases hn : n < s.fresh
  · exact h.session hsymm (Nat.le_refl _) hn h.committed nofun (fun m z _ hz => h.sessions.each m z hz) fun _ hz => by cases hz
  · have he : s.set n none = s := by
      unfold State.set
      rw [Function.update_eq_self_iff.mpr]
      cases hs : s.session n with
      | none => rfl
      | some x => exact absurd (h.bounded n x hs) hn
    exact he.symm ▸ h

theorem Inv.step (h : Inv I A C s) (hP : P.Keeps I A C ok) (a : Action ω ε) (hok : P.Meets ok s a) : Inv I A C (P.step s a) := by
  cases a with
  | start op =>
    refine h.session hP.symm (Nat.le_succ _) (Nat.lt_succ_self _) (hP.fresh _ _ h.committed) (fun z hz => ?_) (fun m z _ hz => h.sessions.each m z hz) ?_
    · exact (hP.start _ _ op z h.committed hz).1
    · exact fun z hz _ w _ _ => (hP.start _ _ op z h.committed hz).2 w
  | exec n =>
    unfold Transactions.step
    dsimp only
    cases hx : s.session n with
    | none => exact h
    | some x =>
      dsimp only
      cases hy : P.exec s.db (s.others n) n x with
      | wait => exact h
      | refused => exact h.clear hP.symm
      | next y =>
        obtain ⟨hA, hC⟩ := hP.exec _ _ _ _ _ _ h.committed (h.sessions.each n x hx) hy
        refine h.session hP.symm (Nat.le_refl _) (h.bounded n x hx) h.committed (fun z hz => Option.some.inj hz ▸ hA) (fun m z _ hz => h.sessions.each m z hz) ?_
        intro z hz m w hm hw
        obtain rfl := Option.some.inj hz
        exact hC w (fun p hp => h.others hp hm hw) (h.sessions.pair n m (Ne.symm hm) x w hx hw)
  | abort n => exact h.clear hP.symm
  | commit n =>
    unfold Transactions.step
    dsimp only
    cases hx : s.session n with
    | none => exact h
    | some x =>
      dsimp only
      cases hy : P.commit s.db n x with
      | none => exact h
      | some p =>
        obtain ⟨db', y⟩ := p
        have hn := h.bounded n x hx
        obtain ⟨hI, hA, hO⟩ := hP.commit _ _ _ _ _ _ hn h.committed (h.sessions.each n x hx) (hok x hx (by rw [hy]; rfl)) hy
        refine h.session hP.symm (Nat.le_refl _) hn hI (fun z hz => (hA z hz).1) (fun m z hm hz => ?_) fun z hz m w _ _ => (hA z hz).2 w
        exact hO m z hm (h.sessions.each m z hz) (h.sessions.pair m n hm z x hz hx)
  | elapse e =>
    obtain ⟨hI, hA⟩ := hP.elapse _ _ e h.committed
    exact ⟨⟨hI, fun m x hx => hA m x (h.sessions.each m x hx), h.sessions.pair⟩, h.bounded⟩

theorem Inv.new (h : I 0 db) : Inv I A C (.new db) where
  sessions := ⟨h, nofun, nofun⟩
  bounded _ _ hx := by cases hx

theorem step_next {y : π} (hx : s.session n = some x) (h : P.exec s.db (s.others n) n x = .next y) : P.step s (.exec n) = s.set n (some y) := by
  unfold Transactions.step
  simp only [hx, h]

theorem step_refused (hx : s.session n = some x) (h : P.exec s.db (s.others n) n x = .refused) : P.step s (.exec n) = s.set n none := by
  unfold Transactions.step
  simp only [hx, h]

theorem step_commit (hx : s.session n = some x) (h : P.commit s.db n x = some (db, y)) :
    P.step s (.commit n) = ⟨db, s.fresh, Function.update s.session n y⟩ := by
  unfold Transactions.step
  simp only [hx, h]

theorem step_closed (hx : s.session n = none) : P.step s (.commit n) = s := by
  unfold Transactions.step
  simp only [hx]

theorem step_unready (hx : s.session n = some x) (h : P.commit s.db n x = none) : P.step s (.commit n) = s := by
  unfold Transactions.step
  simp only [hx, h]

theorem step_exec_db : (P.step s (.exec n)).db = s.db := by
  unfold Transactions.step
  dsimp only
  split
  · rfl
  · split <;> rfl

theorem meets_true : ∀ (actions : List (Action ω ε)) (s : State δ π), Along P.step (P.Meets fun _ _ _ => True) s actions
  | [], _ => trivial
  | a :: actions, s => by
    refine ⟨?_, meets_true actions _⟩
    cases a with
    | commit n => exact fun _ _ _ => trivial
    | _ => exact trivial

theorem Inv.run (h : I 0 db) (hP : P.Keeps I A C fun _ _ _ => True) (actions : List (Action ω ε)) : Inv I A C (P.run db actions) :=
  Along.invariant (fun _ a hs ha => hs.step hP a ha) actions (Inv.new h) (meets_true actions _)

theorem Keeps.everywhere (hP : P.Keeps I A C ok) {L : δ → Prop} (hL : ∀ n db, I n db → L db)
    (hok : ∀ n db m x db' y, I n db → A db m x → P.commit db m x = some (db', y) → L db' → ok db m x) (h : I 0 db)
    (actions : List (Action ω ε)) : (∀ k, L (P.run db (actions.take k)).db) ↔ Along P.step (P.Meets ok) (.new db) actions := by
  have hmeets : ∀ (s : State δ π) (a : Action ω ε), Inv I A C s → L (P.step s a).db → P.Meets ok s a := by
    intro s a hs hl
    cases a with
    | commit n =>
      intro x hx hsome
      unfold Transactions.step at hl
      simp only [hx] at hl
      obtain ⟨⟨db', y⟩, hy⟩ := Option.isSome_iff_exists.mp hsome
      simp only [hy] at hl
      exact hok _ _ _ _ _ _ hs.committed (hs.sessions.each n x hx) hy hl
    | _ => exact trivial
  unfold Transactions.run
  have hs : Inv I A C (.new db : State δ π) := .new h
  generalize (State.new db : State δ π) = s at hs
  induction actions generalizing s with
  | nil => simpa [Along] using hL _ _ hs.committed
  | cons a actions ih =>
    constructor
    · intro hall
      have ha := hmeets s a hs (hall 1)
      exact ⟨ha, (ih _ (hs.step hP a ha)).mp fun k => hall (k + 1)⟩
    · rintro ⟨ha, has⟩ k
      cases k with
      | zero => exact hL _ _ hs.committed
      | succ k => exact (ih _ (hs.step hP a ha)).mpr has k

variable {L : δ → δ → Prop}

theorem Inv.law (h : Inv I A C s) (hsame : ∀ n db, I n db → L db db) (helapse : ∀ n db e, I n db → L db (P.elapse db e))
    (a : Action ω ε) : L s.db (P.step s a).db ↔ ∀ n x db' y, a = .commit n → s.session n = some x → P.commit s.db n x = some (db', y) → L s.db db' := by
  have hstay := hsame _ _ h.committed
  cases a with
  | start op => exact iff_of_true hstay nofun
  | exec n =>
    refine iff_of_true ?_ nofun
    unfold Transactions.step
    dsimp only
    split
    · exact hstay
    · split <;> exact hstay
  | abort n => exact iff_of_true hstay nofun
  | elapse e => exact iff_of_true (helapse _ _ e h.committed) nofun
  | commit n =>
    unfold Transactions.step
    dsimp only
    cases hx : s.session n with
    | none =>
      refine iff_of_true hstay fun _ _ _ _ ha hx' => ?_
      cases ha
      rw [hx] at hx'
      cases hx'
    | some x =>
      dsimp only
      cases hy : P.commit s.db n x with
      | none =>
        refine iff_of_true hstay fun _ _ _ _ ha hx' hy' => ?_
        cases ha
        obtain rfl := Option.some.inj (hx.symm.trans hx')
        rw [hy] at hy'
        cases hy'
      | some p =>
        obtain ⟨db', y⟩ := p
        refine ⟨fun hl _ _ _ _ ha hx' hy' => ?_, fun hall => hall n x db' y rfl hx hy⟩
        cases ha
        obtain rfl := Option.some.inj (hx.symm.trans hx')
        obtain ⟨rfl, -⟩ := Prod.mk.inj (Option.some.inj (hy.symm.trans hy'))
        exact hl

theorem meets_iff {a : Action ω ε} : P.Meets ok s a ↔ ∀ n x db' y, a = .commit n → s.session n = some x → P.commit s.db n x = some (db', y) → ok s.db n x := by
  cases a with
  | commit n =>
    refine ⟨fun h _ _ _ _ ha hx hy => ?_, fun h x hx hsome => ?_⟩
    · cases ha
      exact h _ hx (by rw [hy]; rfl)
    · obtain ⟨⟨db', y⟩, hy⟩ := Option.isSome_iff_exists.mp hsome
      exact h n x db' y rfl hx hy
  | _ => exact iff_of_true trivial nofun

theorem Keeps.along (hP : P.Keeps I A C ok) (hsame : ∀ n db, I n db → L db db) (helapse : ∀ n db e, I n db → L db (P.elapse db e))
    (hcommit : ∀ n db m x db' y, I n db → A db m x → P.commit db m x = some (db', y) → (L db db' ↔ ok db m x)) (h : I 0 db)
    (actions : List (Action ω ε)) : Along P.step (fun s a => L s.db (P.step s a).db) (.new db) actions ↔ Along P.step (P.Meets ok) (.new db) actions := by
  refine Along.congr (fun s a hs ha => Inv.step hs hP a ha) (fun s a hs => ?_) actions (Inv.new h)
  rw [hs.law hsame helapse, meets_iff]
  refine forall_congr' fun n => forall_congr' fun x => forall_congr' fun db' => forall_congr' fun y => imp_congr_right fun _ => ?_
  exact forall_congr' fun hx => forall_congr' fun hy => hcommit _ _ _ _ _ _ hs.committed (hs.sessions.each n x hx) hy

theorem Keeps.holds (hP : P.Keeps I A C ok) (hsame : ∀ n db, I n db → L db db) (helapse : ∀ n db e, I n db → L db (P.elapse db e))
    (hcommit : ∀ n db m x db' y, I n db → A db m x → ok db m x → P.commit db m x = some (db', y) → L db db') (h : I 0 db)
    (actions : List (Action ω ε)) (hall : Along P.step (P.Meets ok) (.new db) actions) : Along P.step (fun s a => L s.db (P.step s a).db) (.new db) actions := by
  have hstep : ∀ (s : State δ π) (a : Action ω ε), Inv I A C s → P.Meets ok s a → Inv I A C (P.step s a) := fun s a hs ha => hs.step hP a ha
  refine Along.imp hstep (fun s a hs ha => ?_) actions (Inv.new h) hall
  rw [hs.law hsame helapse]
  exact fun n x db' y he hx hy => hcommit _ _ _ _ _ _ hs.committed (hs.sessions.each n x hx) (meets_iff.mp ha n x db' y he hx hy) hy

end

end Transactions

end NawaraCore
