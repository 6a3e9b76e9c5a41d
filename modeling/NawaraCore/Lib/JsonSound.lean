import NawaraCore.Lib.Json
import NawaraCore.Lib.Rows

/-!
# The length of a JSON text

The text of a value has the same length in any order of its members, and a text of
plain characters has as many bytes as characters.
-/

namespace NawaraCore.Json

/-! ## The order of members -/

inductive Reorders : Json → Json → Prop
  | refl (j : Json) : Reorders j j
  | obj {ms ms' : Members} (keys : ∀ k, (ms.lookup k).isSome = (ms'.lookup k).isSome)
      (values : ∀ k a b, ms.lookup k = some a → ms'.lookup k = some b → Reorders a b) : Reorders (.obj ms) (.obj ms')

variable {ms ms' : Members} {c : Nat} {j a : Json} {x y : List Nat}

theorem mem_of_lookup {k : List Nat} (h : ms.lookup k = some j) : (k, j) ∈ ms := by
  obtain ⟨l₁, l₂, rfl, -⟩ := List.lookup_eq_some_iff.mp h
  exact List.mem_append_right _ List.mem_cons_self

variable {m : List Nat × Json}

theorem lookup_isSome (h : m ∈ ms) : (ms.lookup m.1).isSome = true := by
  cases hl : ms.lookup m.1 with
  | some _ => rfl
  | none =>
    have := List.lookup_eq_none_iff.mp hl m h
    simp at this

theorem lookup_of_mem (hn : (ms.map Prod.fst).Nodup) (h : m ∈ ms) : ms.lookup m.1 = some m.2 := by
  obtain ⟨j, hj⟩ := Option.isSome_iff_exists.mp (lookup_isSome h)
  rw [hj, ← eq_of_key hn (mem_of_lookup hj) h rfl]

theorem sum_congr (hn : (ms.map Prod.fst).Nodup) (hn' : (ms'.map Prod.fst).Nodup) (f : List Nat × Json → Nat)
    (keys : ∀ k, (ms.lookup k).isSome = (ms'.lookup k).isSome)
    (h : ∀ k a b, ms.lookup k = some a → ms'.lookup k = some b → f (k, a) = f (k, b)) : (ms.map f).sum = (ms'.map f).sum := by
  have hsub : ∀ m ∈ ms', m.1 ∈ ms.map Prod.fst := by
    intro m hm
    have hs : (ms.lookup m.1).isSome = true := (keys m.1).trans (lookup_isSome hm)
    obtain ⟨j, hj⟩ := Option.isSome_iff_exists.mp hs
    exact List.mem_map.mpr ⟨(m.1, j), mem_of_lookup hj, rfl⟩
  rw [sum_members hn hn (fun m hm => List.mem_map.mpr ⟨m, hm, rfl⟩) f, sum_members hn' hn hsub f]
  congr 1
  refine List.map_congr_left fun k _ => ?_
  have hk := keys k
  cases ha : ms.lookup k with
  | none =>
    cases hb : ms'.lookup k with
    | none => rfl
    | some b => rw [ha, hb] at hk; cases hk
  | some a =>
    cases hb : ms'.lookup k with
    | none => rw [ha, hb] at hk; cases hk
    | some b => exact h k a b ha hb

theorem Reorders.of_rel (h : ∀ k, Option.Rel Reorders (ms.lookup k) (ms'.lookup k)) : Reorders (.obj ms) (.obj ms') := by
  refine .obj (fun k => ?_) fun k a b ha hb => ?_
  · have hk := h k
    generalize ms.lookup k = x at hk ⊢
    generalize ms'.lookup k = y at hk ⊢
    cases hk with
    | some _ => rfl
    | none => rfl
  · have hk := h k
    rw [ha, hb] at hk
    cases hk with
    | some hr => exact hr

theorem Reorders.of_lookup (h : ∀ k, ms.lookup k = ms'.lookup k) : Reorders (.obj ms) (.obj ms') := by
  refine .of_rel fun k => ?_
  rw [h k]
  cases ms'.lookup k with
  | none => exact .none
  | some j => exact .some (.refl j)

variable {b : Json}

theorem Reorders.length (h : Reorders a b) (ha : a.WellFormed) (hb : b.WellFormed) : a.stringify.length = b.stringify.length := by
  induction h with
  | refl j => rfl
  | @obj ms ms' keys values ih =>
    obtain ⟨hn, hw⟩ := ha
    obtain ⟨hn', hw'⟩ := hb
    have hcount : ms.length = ms'.length := by
      have := sum_congr hn hn' (fun _ => 1) keys fun _ _ _ _ _ => rfl
      simpa using this
    have hsize : (ms.map memberSize).sum = (ms'.map memberSize).sum := by
      refine sum_congr hn hn' memberSize keys fun k a b hka hkb => ?_
      have := ih k a b hka hkb (hw.of_mem (mem_of_lookup hka)) (hw'.of_mem (mem_of_lookup hkb))
      simp only [memberSize, this]
    rw [length_stringify_obj, length_stringify_obj, hcount, hsize]

/-! ## Plain texts -/

def plainChar (c : Nat) : Bool := decide (32 ≤ c) && decide (c < 127) && decide (c ≠ 34) && decide (c ≠ 92)

inductive Plain : Json → Prop
  | null : Plain .null
  | bool (b : Bool) : Plain (.bool b)
  | int (n : Int) : Plain (.num (.int n))
  | str {s : List Nat} (h : ∀ c ∈ s, plainChar c = true) : Plain (.str s)
  | obj {ms : Members} (keys : ∀ m ∈ ms, ∀ c ∈ m.1, plainChar c = true) (values : ∀ m ∈ ms, Plain m.2) : Plain (.obj ms)

theorem plainChar_iff : plainChar c = true ↔ 32 ≤ c ∧ c < 127 ∧ c ≠ 34 ∧ c ≠ 92 := by
  simp [plainChar, and_assoc]

theorem not_isHigh (h : c < 128) : isHigh c = false := by
  simp only [isHigh, Bool.and_eq_false_iff, decide_eq_false_iff_not]
  omega

theorem quoteUnit_plain (h : plainChar c = true) : quoteUnit c = [c] := by
  obtain ⟨h₁, h₂, h₃, h₄⟩ := plainChar_iff.mp h
  have hl : isLow c = false := by
    simp only [isLow, Bool.and_eq_false_iff, decide_eq_false_iff_not]
    omega
  unfold quoteUnit
  rw [if_neg (by omega), if_neg (by omega), if_neg (by omega), if_neg (by omega), if_neg (by omega), if_neg (by omega), if_neg]
  rw [not_isHigh (by omega), hl]
  simp only [Bool.false_eq_true, or_false]
  omega

theorem quoteUnits_plain : {s : List Nat} → (∀ c ∈ s, plainChar c = true) → quoteUnits s = s
  | [], _ => rfl
  | [c], h => quoteUnit_plain (h c List.mem_cons_self)
  | c :: d :: ds, h => by
    have hc := h c List.mem_cons_self
    have hlt : c < 128 := by
      have := plainChar_iff.mp hc
      omega
    rw [quoteUnits, not_isHigh hlt, Bool.false_and, if_neg Bool.false_ne_true, quoteUnit_plain hc,
      quoteUnits_plain fun x hx => h x (List.mem_cons_of_mem _ hx)]
    rfl

theorem quote_plain {s : List Nat} (h : ∀ c ∈ s, plainChar c = true) : quote s = 34 :: s ++ [34] := by
  rw [quote, quoteUnits_plain h]

theorem utf8_ascii : {s : List Nat} → (∀ c ∈ s, c < 128) → utf8 s = s
  | [], _ => rfl
  | [c], h => by rw [utf8, utf8Unit, if_pos (h c List.mem_cons_self)]
  | c :: d :: ds, h => by
    have hc := h c List.mem_cons_self
    rw [utf8, not_isHigh hc, Bool.false_and, if_neg Bool.false_ne_true, utf8Unit, if_pos hc,
      utf8_ascii fun x hx => h x (List.mem_cons_of_mem _ hx)]
    rfl

theorem natText_digit (n : Nat) : ∀ c ∈ codes (Nat.repr n), isDigit c = true := by
  intro c hc
  obtain ⟨d, hd, rfl⟩ := List.mem_map.mp hc
  have hm : d ∈ Nat.toDigits 10 n := by simpa [Nat.repr] using hd
  have hdigit : d.isDigit = true := Nat.isDigit_of_mem_toDigits (by decide) (by decide) hm
  simp only [Char.isDigit, Bool.and_eq_true, decide_eq_true_eq] at hdigit
  have h₁ : (48 : Nat) ≤ d.toNat := hdigit.1
  have h₂ : d.toNat ≤ 57 := hdigit.2
  simp [isDigit, h₁, h₂]

theorem intText_negSucc (m : Nat) : codes (toString (Int.negSucc m)) = 45 :: codes (Nat.repr (m + 1)) := by
  simp [codes, toString, Int.repr]

def numberChar (c : Nat) : Bool := c == 45 || isDigit c

theorem intText_number (n : Int) : ∀ c ∈ codes (toString n), numberChar c = true := by
  have hnat : ∀ m : Nat, ∀ c ∈ codes (Nat.repr m), numberChar c = true := fun m c hc => by simp [numberChar, natText_digit m c hc]
  cases n with
  | ofNat m => exact hnat m
  | negSucc m =>
    rw [intText_negSucc]
    intro c hc
    rcases List.mem_cons.mp hc with rfl | hc
    · decide
    · exact hnat _ c hc

theorem numberChar_lt (h : numberChar c = true) : c < 58 := by
  simp only [numberChar, isDigit, Bool.or_eq_true, beq_iff_eq, Bool.and_eq_true, decide_eq_true_eq] at h
  omega

theorem mem_intercalate {sep : List Nat} {ls : List (List Nat)} (h : c ∈ sep.intercalate ls) : c ∈ sep ∨ ∃ l ∈ ls, c ∈ l := by
  induction ls with
  | nil => cases h
  | cons l ls ih =>
    cases ls with
    | nil =>
      rw [List.intercalate_singleton] at h
      exact .inr ⟨l, List.mem_cons_self, h⟩
    | cons m ls =>
      rw [List.intercalate_cons_of_ne_nil (by simp), List.append_assoc, List.mem_append, List.mem_append] at h
      rcases h with h | h | h
      · exact .inr ⟨l, List.mem_cons_self, h⟩
      · exact .inl h
      · obtain h | ⟨x, hx, hc⟩ := ih h
        · exact .inl h
        · exact .inr ⟨x, List.mem_cons_of_mem _ hx, hc⟩

theorem plain_ascii {s : List Nat} (h : ∀ c ∈ s, plainChar c = true) : ∀ c ∈ quote s, c < 128 := by
  rw [quote_plain h]
  intro c hc
  rcases mem_append_row hc with hc | rfl
  · rcases List.mem_cons.mp hc with rfl | hc
    · decide
    · have := plainChar_iff.mp (h c hc)
      omega
  · decide

theorem Plain.ascii (h : Plain j) : ∀ c ∈ jsonbText j, c < 128 := by
  induction h with
  | null => decide
  | bool b => cases b <;> decide
  | int n =>
    intro c hc
    have := numberChar_lt (intText_number n c hc)
    omega
  | str h => exact plain_ascii h
  | @obj ms keys values ih =>
    intro c hc
    rw [jsonbText, List.mem_append, List.mem_cons] at hc
    rcases hc with (rfl | hc) | hc
    · decide
    · rcases mem_intercalate hc with hc | ⟨l, hl, hc⟩
      · rcases List.mem_cons.mp hc with rfl | hc
        · decide
        · cases List.mem_singleton.mp hc
          decide
      · obtain ⟨p, hp, rfl⟩ := List.mem_map.mp hl
        rw [List.mem_mergeSort, jsonbMembers_eq] at hp
        obtain ⟨m, hm, rfl⟩ := List.mem_map.mp hp
        rw [List.mem_append, List.mem_cons, List.mem_cons] at hc
        rcases hc with hc | rfl | rfl | hc
        · exact plain_ascii (keys m hm) c hc
        · decide
        · decide
        · exact ih m hm c hc
    · cases List.mem_singleton.mp hc
      decide

/-! ## Texts name their values -/

theorem digits_injective {m n : Nat} (h : codes (Nat.repr m) = codes (Nat.repr n)) : m = n := by
  have hd : Nat.toDigits 10 m = Nat.toDigits 10 n := by
    have := congrArg String.toList (codes_injective h)
    simpa [Nat.repr] using this
  have := congrArg (fun l => Nat.ofDigitChars 10 l 0) hd
  simpa using this

theorem digits_ne_minus (n : Nat) (l : List Nat) : codes (Nat.repr n) ≠ 45 :: l := by
  intro h
  have := natText_digit n 45 (by rw [h]; exact List.mem_cons_self)
  cases this

theorem intText_injective {m n : Int} (h : codes (toString m) = codes (toString n)) : m = n := by
  cases m with
  | ofNat m =>
    cases n with
    | ofNat n => exact congrArg Int.ofNat (digits_injective h)
    | negSucc n =>
      rw [intText_negSucc] at h
      exact absurd h (digits_ne_minus m _)
  | negSucc m =>
    rw [intText_negSucc] at h
    cases n with
    | ofNat n => exact absurd h.symm (digits_ne_minus n _)
    | negSucc n =>
      rw [intText_negSucc] at h
      have := digits_injective (List.cons_eq_cons.mp h).2
      rw [Nat.succ.inj this]

theorem append_cut {p : Nat → Bool} {a b : List Nat} (ha : ∀ c ∈ a, p c = false) (hb : ∀ c ∈ b, p c = false)
    (hx : ∀ c ∈ x.head?, p c = true) (hy : ∀ c ∈ y.head?, p c = true) (h : a ++ x = b ++ y) : a = b ∧ x = y := by
  induction a generalizing b with
  | nil =>
    cases b with
    | nil => exact ⟨rfl, h⟩
    | cons c cs =>
      rw [List.nil_append] at h
      have := hx c (by rw [h]; rfl)
      rw [hb c List.mem_cons_self] at this
      cases this
  | cons c cs ih =>
    cases b with
    | nil =>
      rw [List.nil_append] at h
      have := hy c (by rw [← h]; rfl)
      rw [ha c List.mem_cons_self] at this
      cases this
    | cons d ds =>
      rw [List.cons_append, List.cons_append] at h
      obtain ⟨rfl, hrest⟩ := List.cons_eq_cons.mp h
      obtain ⟨rfl, hxy⟩ := ih (fun e he => ha e (List.mem_cons_of_mem _ he)) (fun e he => hb e (List.mem_cons_of_mem _ he)) hrest
      exact ⟨rfl, hxy⟩

/-- A number, `true`, `false` or `null`. -/
inductive Atom : Json → Prop
  | null : Atom .null
  | bool (b : Bool) : Atom (.bool b)
  | int (n : Int) : Atom (.num (.int n))

def atomChar (c : Nat) : Bool := numberChar c || isLower c

theorem Atom.chars (h : Atom j) : ∀ c ∈ j.stringify, atomChar c = true := by
  cases h with
  | null => decide
  | bool b => cases b <;> decide
  | int n =>
    intro c hc
    have := intText_number n c hc
    simp [atomChar, this]

theorem intText_ne_nil (n : Int) : codes (toString n) ≠ [] := by
  cases n with
  | ofNat m =>
    intro h
    have hd : (Nat.repr m).toList = [] := List.map_eq_nil_iff.mp h
    rw [Nat.repr, String.toList_ofList] at hd
    exact Nat.toDigits_ne_nil hd
  | negSucc m =>
    rw [intText_negSucc]
    exact List.cons_ne_nil _ _

theorem Atom.ne_nil (h : Atom j) : j.stringify ≠ [] := by
  cases h with
  | null => decide
  | bool b => cases b <;> decide
  | int n => exact intText_ne_nil n

theorem intText_ne {n : Int} {l : List Nat} (hc : c ∈ l) (h : numberChar c = false) : codes (toString n) ≠ l := by
  rintro rfl
  rw [intText_number n c hc] at h
  cases h

theorem Atom.injective (ha : Atom a) (hb : Atom b) (h : a.stringify = b.stringify) : a = b := by
  cases ha with
  | null =>
    cases hb with
    | null => rfl
    | bool b => cases b <;> exact absurd h (by decide)
    | int n => exact absurd h.symm (intText_ne (c := 110) (by decide) (by decide))
  | bool a =>
    cases hb with
    | null => cases a <;> exact absurd h (by decide)
    | bool b => cases a <;> cases b <;> first | rfl | exact absurd h (by decide)
    | int n => cases a <;> exact absurd h.symm (intText_ne (c := 101) (by decide) (by decide))
  | int m =>
    cases hb with
    | null => exact absurd h (intText_ne (c := 110) (by decide) (by decide))
    | bool b => cases b <;> exact absurd h (intText_ne (c := 101) (by decide) (by decide))
    | int n => rw [intText_injective h]

def stopChar (c : Nat) : Bool := c == 44 || c == 125

def Stops (x : List Nat) : Prop := ∀ c ∈ x.head?, stopChar c = true

theorem not_stop (h : atomChar c = true) : stopChar c = false := by
  simp only [atomChar, numberChar, isDigit, isLower, Bool.or_eq_true, beq_iff_eq, Bool.and_eq_true, decide_eq_true_eq] at h
  simp only [stopChar, Bool.or_eq_false_iff, beq_eq_false_iff_ne]
  omega

theorem quote_cut {s t : List Nat} (hs : ∀ c ∈ s, plainChar c = true) (ht : ∀ c ∈ t, plainChar c = true)
    (h : quote s ++ x = quote t ++ y) : s = t ∧ x = y := by
  have hne : ∀ {u : List Nat}, (∀ c ∈ u, plainChar c = true) → ∀ c ∈ u, (c == 34) = false := fun hu c hc => by
    have := plainChar_iff.mp (hu c hc)
    simp only [beq_eq_false_iff_ne]
    omega
  rw [quote_plain hs, quote_plain ht] at h
  simp only [List.cons_append, List.append_assoc, List.cons.injEq, true_and, List.nil_append] at h
  obtain ⟨rfl, hxy⟩ := append_cut (p := (· == 34)) (hne hs) (hne ht) (by simp) (by simp) h
  exact ⟨rfl, (List.cons_eq_cons.mp hxy).2⟩

theorem plain_cases (h : Plain j) : Atom j ∨ (∃ s, j = .str s ∧ ∀ c ∈ s, plainChar c = true) ∨
    ∃ ms, j = .obj ms ∧ (∀ m ∈ ms, ∀ c ∈ m.1, plainChar c = true) ∧ ∀ m ∈ ms, Plain m.2 := by
  cases h with
  | null => exact .inl .null
  | bool b => exact .inl (.bool b)
  | int n => exact .inl (.int n)
  | str h => exact .inr (.inl ⟨_, rfl, h⟩)
  | obj keys values => exact .inr (.inr ⟨_, rfl, keys, values⟩)

def restText : Members → List Nat → List Nat
  | [], x => 125 :: x
  | m :: ms, x => 44 :: (quote m.1 ++ 58 :: (m.2.stringify ++ restText ms x))

theorem restText_stops (ms : Members) (x : List Nat) : Stops (restText ms x) := by
  cases ms <;> simp [Stops, restText, stopChar]

theorem intercalate_rest (ms : Members) (l x : List Nat) :
    [44].intercalate (l :: memberTexts ms) ++ 125 :: x = l ++ restText ms x := by
  induction ms generalizing l with
  | nil => simp [memberTexts, restText, List.intercalate]
  | cons m ms ih =>
    rw [memberTexts, List.intercalate_cons_cons, List.append_assoc, ih]
    simp [restText, List.append_assoc]

theorem stringify_obj_cons (m : List Nat × Json) (ms : Members) (x : List Nat) :
    (Json.obj (m :: ms)).stringify ++ x = 123 :: (quote m.1 ++ 58 :: (m.2.stringify ++ restText ms x)) := by
  have h := intercalate_rest ms (quote m.1 ++ 58 :: m.2.stringify) x
  rw [stringify, memberTexts]
  simp only [List.cons_append, List.append_assoc, List.nil_append] at h ⊢
  rw [h]

def Cuts (a : Json) : Prop :=
  ∀ b x y, Plain b → Stops x → Stops y → a.stringify ++ x = b.stringify ++ y → a = b ∧ x = y

theorem members_cut (hk : ∀ m ∈ ms, ∀ c ∈ m.1, plainChar c = true) (hc : ∀ m ∈ ms, Cuts m.2)
    (hk' : ∀ m ∈ ms', ∀ c ∈ m.1, plainChar c = true) (hp : ∀ m ∈ ms', Plain m.2) (h : restText ms x = restText ms' y) :
    ms = ms' ∧ x = y := by
  induction ms generalizing ms' with
  | nil =>
    cases ms' with
    | nil => exact ⟨rfl, (List.cons_eq_cons.mp h).2⟩
    | cons m' ms' => exact absurd (List.cons_eq_cons.mp h).1 (by decide)
  | cons m ms ih =>
    cases ms' with
    | nil => exact absurd (List.cons_eq_cons.mp h).1 (by decide)
    | cons m' ms' =>
      obtain ⟨hkey, h⟩ := quote_cut (hk m List.mem_cons_self) (hk' m' List.mem_cons_self) (List.cons_eq_cons.mp h).2
      obtain ⟨hvalue, h⟩ := hc m List.mem_cons_self m'.2 _ _ (hp m' List.mem_cons_self) (restText_stops ms x) (restText_stops ms' y)
        (List.cons_eq_cons.mp h).2
      obtain ⟨rfl, hxy⟩ := ih (fun n hn => hk n (List.mem_cons_of_mem _ hn)) (fun n hn => hc n (List.mem_cons_of_mem _ hn))
        (fun n hn => hk' n (List.mem_cons_of_mem _ hn)) (fun n hn => hp n (List.mem_cons_of_mem _ hn)) h
      exact ⟨by rw [Prod.ext hkey hvalue], hxy⟩

theorem obj_cut (hk : ∀ m ∈ ms, ∀ c ∈ m.1, plainChar c = true) (hc : ∀ m ∈ ms, Cuts m.2)
    (hk' : ∀ m ∈ ms', ∀ c ∈ m.1, plainChar c = true) (hp : ∀ m ∈ ms', Plain m.2)
    (h : (Json.obj ms).stringify ++ x = (Json.obj ms').stringify ++ y) : ms = ms' ∧ x = y := by
  have hnil : ∀ z, (Json.obj []).stringify ++ z = 123 :: 125 :: z := fun z => rfl
  cases ms with
  | nil =>
    cases ms' with
    | nil => exact ⟨rfl, (List.cons_eq_cons.mp (List.cons_eq_cons.mp h).2).2⟩
    | cons m' ms' =>
      rw [hnil, stringify_obj_cons, quote] at h
      exact absurd (List.cons_eq_cons.mp (List.cons_eq_cons.mp h).2).1 (by decide)
  | cons m ms =>
    cases ms' with
    | nil =>
      rw [hnil, stringify_obj_cons, quote] at h
      exact absurd (List.cons_eq_cons.mp (List.cons_eq_cons.mp h).2).1 (by decide)
    | cons m' ms' =>
      rw [stringify_obj_cons, stringify_obj_cons] at h
      exact members_cut hk hc hk' hp (congrArg (44 :: ·) (List.cons_eq_cons.mp h).2)

theorem Atom.head (ha : Atom a) {l : List Nat} (h : a.stringify ++ x = c :: l) : atomChar c = true := by
  cases ht : a.stringify with
  | nil => exact absurd ht ha.ne_nil
  | cons d ds =>
    rw [ht] at h
    obtain ⟨rfl, -⟩ := List.cons_eq_cons.mp h
    exact ha.chars d (by rw [ht]; exact List.mem_cons_self)

theorem Atom.cuts (ha : Atom a) : Cuts a := by
  intro b x y hb hx hy h
  rcases plain_cases hb with hb | ⟨s, rfl, -⟩ | ⟨ms, rfl, -⟩
  · obtain ⟨heq, hxy⟩ := append_cut (p := stopChar) (fun c hc => not_stop (ha.chars c hc)) (fun c hc => not_stop (hb.chars c hc)) hx hy h
    exact ⟨ha.injective hb heq, hxy⟩
  · cases ha.head h
  · cases ha.head h

theorem Plain.cuts (ha : Plain a) : Cuts a := by
  induction ha with
  | null => exact Atom.null.cuts
  | bool b => exact (Atom.bool b).cuts
  | int n => exact (Atom.int n).cuts
  | @str s hs =>
    intro b x y hb hx hy h
    rcases plain_cases hb with hb | ⟨t, rfl, ht⟩ | ⟨ms, rfl, -⟩
    · cases hb.head h.symm
    · obtain ⟨rfl, hxy⟩ := quote_cut hs ht h
      exact ⟨rfl, hxy⟩
    · exact absurd (List.cons_eq_cons.mp h).1 (by decide)
  | @obj ms keys values ih =>
    intro b x y hb hx hy h
    rcases plain_cases hb with hb | ⟨t, rfl, ht⟩ | ⟨ms', rfl, hk', hp⟩
    · cases hb.head h.symm
    · exact absurd (List.cons_eq_cons.mp h).1 (by decide)
    · obtain ⟨rfl, hxy⟩ := obj_cut keys ih hk' hp h
      exact ⟨rfl, hxy⟩

theorem stringify_injective (ha : Plain a) (hb : Plain b) (h : a.stringify = b.stringify) : a = b := by
  refine (ha.cuts b [] [] hb ?_ ?_ (by rw [h])).1 <;>
    · intro c hc
      cases hc

end NawaraCore.Json
