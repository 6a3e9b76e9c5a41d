import NawaraCore.Lib.JsonParse

/-!
# The text of a value reads as the value

By induction on the value: what is read stops where the text ends, whatever follows it.
-/

namespace NawaraCore.Json

/-! ## Strings -/

theorem hexValue_hexDigit {n : Nat} (h : n < 16) : hexValue (hexDigit n) = some n := by
  unfold hexValue hexDigit
  by_cases h10 : n < 10
  · rw [if_pos h10, if_pos (by omega)]
    exact congrArg some (by omega)
  · rw [if_neg h10, if_neg (by omega), if_pos (by omega)]
    exact congrArg some (by omega)

variable {c fuel : Nat} {rest text s : List Nat}

theorem readUnit_escape (h : c < 65536) (rest : List Nat) : readUnit (unicodeEscape c ++ rest) = some (some c, rest) := by
  have hread : readHex 4 0 ([hexDigit (c / 4096 % 16), hexDigit (c / 256 % 16), hexDigit (c / 16 % 16), hexDigit (c % 16)] ++ rest) = some (c, rest) := by
    simp only [List.cons_append, List.nil_append, readHex, hexValue_hexDigit (Nat.mod_lt _ (by decide : 0 < 16))]
    exact congrArg (fun n => some (n, rest)) (by omega)
  exact congrArg (Option.map fun p : Nat × List Nat => (some p.1, p.2)) hread

theorem readUnit_plain (h₁ : c ≠ 34) (h₂ : c ≠ 92) (h₃ : ¬ c < 32) (rest : List Nat) : readUnit (c :: rest) = some (some c, rest) := by
  rw [readUnit, if_neg h₁, if_neg h₂, if_neg h₃]

theorem isHigh_iff : isHigh c = true ↔ 55296 ≤ c ∧ c < 56320 := by
  simp [isHigh]

theorem isLow_iff : isLow c = true ↔ 56320 ≤ c ∧ c < 57344 := by
  simp [isLow]

theorem readUnit_quote (c : Nat) (rest : List Nat) : readUnit (quoteUnit c ++ rest) = some (some c, rest) := by
  unfold quoteUnit
  split
  · rename_i h
    rcases h with rfl | rfl <;> rfl
  · rename_i hquote
    split
    · rename_i h
      rw [h]
      rfl
    · split
      · rename_i h
        rw [h]
        rfl
      · split
        · rename_i h
          rw [h]
          rfl
        · split
          · rename_i h
            rw [h]
            rfl
          · split
            · rename_i h
              rw [h]
              rfl
            · split
              · rename_i h
                refine readUnit_escape ?_ rest
                rcases h with h | h | h
                · omega
                · have := isHigh_iff.mp h
                  omega
                · have := isLow_iff.mp h
                  omega
              · rename_i h
                exact readUnit_plain (fun he => hquote (.inl he)) (fun he => hquote (.inr he)) (fun he => h (.inl he)) rest

theorem readUnits_cons {u : Nat} (h : readUnit text = some (some u, rest)) :
    readUnits (fuel + 1) text = (readUnits fuel rest).map fun (s, r) => (u :: s, r) := by
  rw [readUnits, h]

theorem readUnits_quote : ∀ (s : List Nat) (fuel : Nat) (rest : List Nat), s.length < fuel → readUnits fuel (quoteUnits s ++ 34 :: rest) = some (s, rest)
  | _, 0, _, h => absurd h (Nat.not_lt_zero _)
  | [], fuel + 1, rest, _ => rfl
  | [c], fuel + 1, rest, h => by
    rw [quoteUnits, readUnits_cons (readUnit_quote c _)]
    cases fuel with
    | zero => exact absurd h (Nat.lt_irrefl _)
    | succ fuel => rfl
  | c :: d :: ds, fuel + 1, rest, h => by
    have hd : (d :: ds).length < fuel := Nat.lt_of_succ_lt_succ h
    rw [quoteUnits]
    split
    · rename_i hpair
      -- a pair stands as it is
      obtain ⟨hc, hl⟩ := Bool.and_eq_true_iff.mp hpair
      have hc := isHigh_iff.mp hc
      have hl := isLow_iff.mp hl
      cases fuel with
      | zero => exact absurd hd (Nat.not_lt_zero _)
      | succ fuel =>
        rw [List.cons_append, readUnits_cons (readUnit_plain (by omega) (by omega) (by omega) _), List.cons_append,
          readUnits_cons (readUnit_plain (by omega) (by omega) (by omega) _), readUnits_quote ds fuel rest (Nat.lt_of_succ_lt_succ hd)]
        rfl
    · rw [List.append_assoc, readUnits_cons (readUnit_quote c _), readUnits_quote (d :: ds) fuel rest hd]
      rfl

theorem quoteUnit_length (c : Nat) : 1 ≤ (quoteUnit c).length := by
  unfold quoteUnit unicodeEscape
  repeat' split
  all_goals simp

theorem quoteUnits_length : ∀ s : List Nat, s.length ≤ (quoteUnits s).length
  | [] => Nat.le_refl _
  | [c] => quoteUnit_length c
  | c :: d :: ds => by
    rw [quoteUnits]
    split
    · have := quoteUnits_length ds
      simp only [List.length_cons]
      omega
    · have := quoteUnits_length (d :: ds)
      have := quoteUnit_length c
      simp only [List.length_cons, List.length_append] at *
      omega

theorem readString_quote (s rest : List Nat) : readString (quoteUnits s ++ 34 :: rest) = some (s, rest) := by
  refine readUnits_quote s _ rest ?_
  have := quoteUnits_length s
  simp only [List.length_append, List.length_cons]
  omega

/-! ## Numbers -/

theorem isDigit_range (h : isDigit c = true) : 48 ≤ c ∧ c ≤ 57 := by
  simpa only [isDigit, Bool.and_eq_true, decide_eq_true_eq] using h

theorem isDigit_literal (h : isDigit c = true) : literalChar c = true := by
  unfold literalChar
  rw [h, Bool.true_or]

theorem all_parts {p q : Nat → Bool} (h₁ : ∀ c ∈ s.takeWhile p, q c = true) (h₂ : ∀ c ∈ s.dropWhile p, q c = true) : ∀ c ∈ s, q c = true := by
  intro c hc
  rw [← List.takeWhile_append_dropWhile (p := p) (l := s)] at hc
  rcases List.mem_append.mp hc with hc | hc
  · exact h₁ c hc
  · exact h₂ c hc

theorem digits_literal (s : List Nat) : ∀ c ∈ s.takeWhile isDigit, literalChar c = true :=
  fun c hc => isDigit_literal (List.all_eq_true.mp List.all_takeWhile c hc)

theorem exponent_chars (h : isExponent s = true) : ∀ c ∈ s, literalChar c = true := by
  cases s with
  | nil => exact nofun
  | cons c s =>
    have hdigits : ∀ {l : List Nat}, l.all isDigit = true → ∀ c ∈ l, literalChar c = true := fun hl c hc => isDigit_literal (List.all_eq_true.mp hl c hc)
    unfold isExponent at h
    simp only [Bool.and_eq_true, Bool.or_eq_true, decide_eq_true_eq] at h
    obtain ⟨⟨hc, -⟩, hd⟩ := h
    intro d hmem
    rcases List.mem_cons.mp hmem with rfl | hmem
    · rcases hc with rfl | rfl <;> decide
    · split at hd
      · rcases List.mem_cons.mp hmem with rfl | hmem
        · decide
        · exact hdigits hd d hmem
      · rcases List.mem_cons.mp hmem with rfl | hmem
        · decide
        · exact hdigits hd d hmem
      · exact hdigits hd d hmem

theorem fraction_chars (h : isFraction s = true) : ∀ c ∈ s, literalChar c = true := by
  unfold isFraction at h
  split at h
  · rename_i s
    rw [Bool.and_eq_true] at h
    intro c hc
    rcases List.mem_cons.mp hc with rfl | hc
    · decide
    · exact all_parts (digits_literal s) (exponent_chars h.2) c hc
  · exact exponent_chars h

theorem literal_chars (h : isLiteral s = true) : ∀ c ∈ s, literalChar c = true := by
  have hbody : ∀ {t : List Nat}, isFraction (t.dropWhile isDigit) = true → ∀ c ∈ t, literalChar c = true :=
    fun ht => all_parts (digits_literal _) (fraction_chars ht)
  unfold isLiteral at h
  simp only [Bool.and_eq_true] at h
  split at h
  · intro c hc
    rcases List.mem_cons.mp hc with rfl | hc
    · decide
    · exact hbody h.2 c hc
  · exact hbody h.2

theorem literal_head (h : isLiteral s = true) : ∃ c t, s = c :: t ∧ (c = 45 ∨ isDigit c = true) := by
  cases s with
  | nil => exact absurd h (by decide)
  | cons c t =>
    refine ⟨c, t, rfl, ?_⟩
    by_cases hc : c = 45
    · exact .inl hc
    · right
      unfold isLiteral at h
      simp only [Bool.and_eq_true, decide_eq_true_eq] at h
      split at h
      · rename_i he
        exact absurd (List.cons.inj he).1 hc
      · by_contra hd
        refine h.1.1 ?_
        rw [List.takeWhile_cons, if_neg hd]

def Ends (rest : List Nat) : Prop := ∀ c ∈ rest.head?, literalChar c = false

theorem ends_cons (h : literalChar c = false) : Ends (c :: rest) := fun _ hd => Option.some.inj hd ▸ h

theorem ends_nil : Ends [] := nofun

variable {j : Json}

section
variable {N : Numerals}

theorem readNumber_text {n : JsNumber} (hv : N.valid n) (hf : JsNumber.finite n = true) (hr : Ends rest) :
    readNumber N (numberText n ++ rest) = some (.num n, rest) := by
  have hl := N.literal n hv hf
  have hall := literal_chars hl
  have hstop : rest.takeWhile literalChar = [] ∧ rest.dropWhile literalChar = rest := by
    cases rest with
    | nil => exact ⟨rfl, rfl⟩
    | cons c rest =>
      have hc : ¬ literalChar c = true := by
        rw [hr c rfl]
        exact Bool.false_ne_true
      rw [List.takeWhile_cons_of_neg hc, List.dropWhile_cons_of_neg hc]
      exact ⟨rfl, rfl⟩
  unfold readNumber
  rw [List.takeWhile_append_of_pos hall, List.dropWhile_append_of_pos hall, hstop.1, hstop.2, List.append_nil]
  dsimp only
  rw [if_pos hl, N.exact n hv hf]

/-! ## Values -/

mutual
/-- A value that a text can give back: its numbers are there and finite, and no object has a key twice. -/
def Readable (N : Numerals) : Json → Prop
  | .num n => N.valid n ∧ JsNumber.finite n = true
  | .arr items => ReadableItems N items
  | .obj members => (members.map Prod.fst).Nodup ∧ ReadableMembers N members
  | _ => True

def ReadableItems (N : Numerals) : List Json → Prop
  | [] => True
  | j :: js => Readable N j ∧ ReadableItems N js

def ReadableMembers (N : Numerals) : Members → Prop
  | [] => True
  | (_, j) :: ms => Readable N j ∧ ReadableMembers N ms
end

theorem readableItems_iff {js : List Json} : ReadableItems N js ↔ ∀ j ∈ js, Readable N j := by
  induction js with
  | nil => exact iff_of_true trivial (List.forall_mem_nil _)
  | cons j js ih =>
    rw [ReadableItems, ih, List.forall_mem_cons]

theorem readableMembers_iff {ms : Members} : ReadableMembers N ms ↔ ∀ m ∈ ms, Readable N m.2 := by
  induction ms with
  | nil => exact iff_of_true trivial (List.forall_mem_nil _)
  | cons m ms ih =>
    rw [ReadableMembers, ih, List.forall_mem_cons]

mutual
theorem Readable.sortKeys : ∀ {j : Json}, Readable N j → Readable N j.sortKeys
  | .null, _ | .bool _, _ | .str _, _ => trivial
  | .num _, h => h
  | .arr _, h => ReadableItems.sortItems h
  | .obj members, h => by
    show ((byKey (sortMembers members)).map Prod.fst).Nodup ∧ ReadableMembers N (byKey (sortMembers members))
    have hsorted := ReadableMembers.sortMembers h.2
    refine ⟨byKey_keys ?_, readableMembers_iff.mpr fun m hm => readableMembers_iff.mp hsorted m (mem_byKey.mp hm)⟩
    rw [sortMembers_eq, List.map_map]
    exact h.1

theorem ReadableItems.sortItems : ∀ {js : List Json}, ReadableItems N js → ReadableItems N (sortItems js)
  | [], _ => trivial
  | _ :: _, h => ⟨h.1.sortKeys, ReadableItems.sortItems h.2⟩

theorem ReadableMembers.sortMembers : ∀ {ms : Members}, ReadableMembers N ms → ReadableMembers N (sortMembers ms)
  | [], _ => trivial
  | _ :: _, h => ⟨h.1.sortKeys, ReadableMembers.sortMembers h.2⟩
end

mutual
theorem Readable.finite : ∀ {j : Json}, Readable N j → j.finite = true
  | .null, _ | .bool _, _ | .str _, _ => rfl
  | .num _, h => h.2
  | .arr _, h => ReadableItems.finite h
  | .obj _, h => ReadableMembers.finite h.2

theorem ReadableItems.finite : ∀ {js : List Json}, ReadableItems N js → finiteItems js = true
  | [], _ => rfl
  | _ :: _, h => Bool.and_eq_true_iff.mpr ⟨h.1.finite, ReadableItems.finite h.2⟩

theorem ReadableMembers.finite : ∀ {ms : Members}, ReadableMembers N ms → finiteMembers ms = true
  | [], _ => rfl
  | _ :: _, h => Bool.and_eq_true_iff.mpr ⟨h.1.finite, ReadableMembers.finite h.2⟩
end

theorem distinct_self : ∀ {ms : Members}, (ms.map Prod.fst).Nodup → distinct ms = ms
  | [], _ => rfl
  | (k, j) :: ms, h => by
    obtain ⟨hk, hn⟩ := List.nodup_cons.mp h
    have hno : ms.lookup k = none := List.lookup_eq_none_iff.mpr fun m hm => by
      have hne : k ≠ m.1 := fun he => hk (List.mem_map.mpr ⟨m, hm, he.symm⟩)
      simp [hne]
    rw [distinct, distinct_self hn, hno, Option.getD_none, List.filter_eq_self.mpr]
    intro m hm
    have hne : m.1 ≠ k := fun he => hk (List.mem_map.mpr ⟨m, hm, he⟩)
    simp [hne]

def restItems : List Json → List Nat → List Nat
  | [], x => 93 :: x
  | j :: js, x => 44 :: (j.stringify ++ restItems js x)

theorem stringify_arr_cons (j : Json) (js : List Json) (x : List Nat) :
    (Json.arr (j :: js)).stringify ++ x = 91 :: (j.stringify ++ restItems js x) := by
  have h : ∀ (js : List Json) (l : List Nat), [44].intercalate (l :: itemTexts js) ++ 93 :: x = l ++ restItems js x := by
    intro js
    induction js with
    | nil => intro l; simp [itemTexts, restItems, List.intercalate]
    | cons j js ih =>
      intro l
      rw [itemTexts, List.intercalate_cons_cons, List.append_assoc, ih]
      simp [restItems]
  rw [stringify, itemTexts]
  simp only [List.cons_append, List.append_assoc, List.nil_append]
  rw [h]

theorem restItems_ends (js : List Json) (x : List Nat) : Ends (restItems js x) := by
  cases js <;> exact ends_cons (by decide)

theorem restText_ends (ms : Members) (x : List Nat) : Ends (restText ms x) := by
  cases ms <;> exact ends_cons (by decide)

theorem skipSpace_cons (h : isSpace c = false) (text : List Nat) : skipSpace (c :: text) = c :: text :=
  List.dropWhile_cons_of_neg (by rw [h]; exact Bool.false_ne_true)

theorem isDigit_space (h : isDigit c = true) : isSpace c = false := by
  have hrange := isDigit_range h
  unfold isSpace
  simp only [Bool.or_eq_false_iff, decide_eq_false_iff_not]
  omega

theorem stringify_head (h : Readable N j) : ∃ c t, j.stringify = c :: t ∧ isSpace c = false ∧ c ≠ 93 ∧ c ≠ 125 := by
  cases j with
  | null => exact ⟨110, _, rfl, rfl, by decide, by decide⟩
  | bool b => cases b <;> exact ⟨_, _, rfl, rfl, by decide, by decide⟩
  | num n =>
    obtain ⟨c, t, ht, hc⟩ := literal_head (N.literal n h.1 h.2)
    refine ⟨c, t, ht, ?_⟩
    rcases hc with rfl | hc
    · decide
    · have hrange := isDigit_range hc
      exact ⟨isDigit_space hc, by omega, by omega⟩
  | str s => exact ⟨34, _, rfl, rfl, by decide, by decide⟩
  | arr items => exact ⟨91, _, rfl, rfl, by decide, by decide⟩
  | obj members => exact ⟨123, _, rfl, rfl, by decide, by decide⟩

theorem readValue_word {word : String} {w : List Nat} (hw : codes word = c :: w) (fuel : Nat) (rest : List Nat)
    (h : ∀ text, readValue N (fuel + 1) (c :: text) = readWord word j (c :: text)) : readValue N (fuel + 1) (codes word ++ rest) = some (j, rest) := by
  rw [hw, List.cons_append, h, ← List.cons_append, ← hw]
  unfold readWord
  rw [if_pos (List.prefix_append _ _), List.drop_left]

theorem readValue_cons (hs : isSpace c = false) (fuel : Nat) (text : List Nat) : readValue N (fuel + 1) (c :: text) =
    if c = 34 then (readString text).map fun (s, rest) => (.str s, rest)
    else if c = 91 then
      if (skipSpace text).head? = some 93 then some (.arr [], (skipSpace text).tail)
      else (readItems N fuel text).map fun (items, rest) => (.arr items, rest)
    else if c = 123 then
      if (skipSpace text).head? = some 125 then some (.obj [], (skipSpace text).tail)
      else (readMembers N fuel text).map fun (members, rest) => (.obj (distinct members), rest)
    else if c = 110 then readWord "null" .null (c :: text)
    else if c = 116 then readWord "true" (.bool true) (c :: text)
    else if c = 102 then readWord "false" (.bool false) (c :: text)
    else readNumber N (c :: text) := by
  rw [readValue, skipSpace_cons hs]

theorem readValue_array (hs : isSpace c = false) (hc : c ≠ 93) (fuel : Nat) (text : List Nat) :
    readValue N (fuel + 1) (91 :: c :: text) = (readItems N fuel (c :: text)).map fun (items, rest) => (.arr items, rest) := by
  rw [readValue_cons rfl, if_neg (by decide), if_pos rfl, skipSpace_cons hs, List.head?_cons, if_neg fun he => hc (Option.some.inj he)]

theorem readValue_object (hs : isSpace c = false) (hc : c ≠ 125) (fuel : Nat) (text : List Nat) :
    readValue N (fuel + 1) (123 :: c :: text) = (readMembers N fuel (c :: text)).map fun (members, rest) => (.obj (distinct members), rest) := by
  rw [readValue_cons rfl, if_neg (by decide), if_neg (by decide), if_pos rfl, skipSpace_cons hs, List.head?_cons, if_neg fun he => hc (Option.some.inj he)]

theorem readItems_value (h : readValue N fuel text = some (j, c :: rest)) (hs : isSpace c = false) :
    readItems N (fuel + 1) text =
      if c = 44 then (readItems N fuel rest).map fun (js, rest) => (j :: js, rest) else if c = 93 then some ([j], rest) else none := by
  rw [readItems, h]
  dsimp only
  rw [skipSpace_cons hs]

theorem readKey_quote (k text : List Nat) : readKey (quote k ++ 58 :: text) = some (k, text) := by
  have htext : quote k ++ 58 :: text = 34 :: (quoteUnits k ++ 34 :: 58 :: text) := by simp [quote]
  rw [htext, readKey, skipSpace_cons rfl]
  dsimp only
  rw [if_pos rfl, readString_quote]
  dsimp only
  rw [skipSpace_cons rfl]
  rfl

theorem readMembers_value {k : List Nat} (h : readValue N fuel text = some (j, c :: rest)) (hs : isSpace c = false) :
    readMembers N (fuel + 1) (quote k ++ 58 :: text) =
      if c = 44 then (readMembers N fuel rest).map fun (ms, rest) => ((k, j) :: ms, rest) else if c = 125 then some ([(k, j)], rest) else none := by
  rw [readMembers, readKey_quote]
  dsimp only
  rw [h]
  dsimp only
  rw [skipSpace_cons hs]

mutual
theorem readValue_text : ∀ (j : Json) (fuel : Nat) (rest : List Nat), Readable N j → j.stringify.length < fuel → Ends rest →
    readValue N fuel (j.stringify ++ rest) = some (j, rest)
  | _, 0, _, _, h, _ => absurd h (Nat.not_lt_zero _)
  | .null, fuel + 1, rest, _, _, _ => readValue_word (c := 110) rfl fuel rest fun text => readValue_cons rfl fuel text
  | .bool true, fuel + 1, rest, _, _, _ => readValue_word (c := 116) rfl fuel rest fun text => readValue_cons rfl fuel text
  | .bool false, fuel + 1, rest, _, _, _ => readValue_word (c := 102) rfl fuel rest fun text => readValue_cons rfl fuel text
  | .num n, fuel + 1, rest, hj, _, hr => by
    obtain ⟨c, t, ht, hc⟩ := literal_head (N.literal n hj.1 hj.2)
    have hread := readNumber_text hj.1 hj.2 hr
    have hs : isSpace c = false := by
      rcases hc with rfl | hc
      · rfl
      · exact isDigit_space hc
    have hne : ∀ d, 58 ≤ d ∨ d = 34 → c ≠ d := by
      intro d hd
      rcases hc with rfl | hc
      · omega
      · have := isDigit_range hc
        omega
    rw [stringify]
    rw [ht, List.cons_append] at hread ⊢
    rw [readValue_cons hs, if_neg (hne 34 (.inr rfl)), if_neg (hne 91 (.inl (by decide))), if_neg (hne 123 (.inl (by decide))), if_neg (hne 110 (.inl (by decide))),
      if_neg (hne 116 (.inl (by decide))), if_neg (hne 102 (.inl (by decide)))]
    exact hread
  | .str s, fuel + 1, rest, _, _, _ => by
    rw [stringify, quote, List.cons_append, List.cons_append, readValue_cons rfl, if_pos rfl, List.append_assoc, List.cons_append, List.nil_append, readString_quote]
    rfl
  | .arr [], fuel + 1, rest, _, _, _ => by
    show readValue N (fuel + 1) (91 :: 93 :: rest) = _
    rw [readValue_cons rfl, if_neg (by decide), if_pos rfl, skipSpace_cons rfl]
    rfl
  | .arr (j :: js), fuel + 1, rest, hj, hf, _ => by
    obtain ⟨c, t, ht, hs, hc, -⟩ := stringify_head hj.1
    have hlength : (j.stringify ++ restItems js []).length < fuel := by
      have := congrArg List.length (stringify_arr_cons j js [])
      simp only [List.length_append, List.length_cons, List.length_nil] at this hf ⊢
      omega
    have hread := readItems_text j js fuel rest hj hlength
    rw [stringify_arr_cons]
    rw [ht, List.cons_append] at hread ⊢
    rw [readValue_array hs hc, hread]
    rfl
  | .obj [], fuel + 1, rest, _, _, _ => by
    show readValue N (fuel + 1) (123 :: 125 :: rest) = _
    rw [readValue_cons rfl, if_neg (by decide), if_neg (by decide), if_pos rfl, skipSpace_cons rfl]
    rfl
  | .obj (m :: ms), fuel + 1, rest, hj, hf, _ => by
    have hlength : (quote m.1 ++ 58 :: (m.2.stringify ++ restText ms [])).length < fuel := by
      have := congrArg List.length (stringify_obj_cons m ms [])
      simp only [List.length_append, List.length_cons, List.length_nil] at this hf ⊢
      omega
    have hread := readMembers_text m ms fuel rest hj.2 hlength
    have htext : quote m.1 ++ 58 :: (m.2.stringify ++ restText ms rest) = 34 :: (quoteUnits m.1 ++ [34] ++ 58 :: (m.2.stringify ++ restText ms rest)) := rfl
    rw [stringify_obj_cons]
    rw [htext] at hread ⊢
    rw [readValue_object rfl (by decide), hread]
    show some (Json.obj (distinct (m :: ms)), rest) = _
    rw [distinct_self hj.1]

theorem readItems_text : ∀ (j : Json) (js : List Json) (fuel : Nat) (rest : List Nat), ReadableItems N (j :: js) →
    (j.stringify ++ restItems js []).length < fuel → readItems N fuel (j.stringify ++ restItems js rest) = some (j :: js, rest)
  | _, _, 0, _, _, h => absurd h (Nat.not_lt_zero _)
  | j, [], fuel + 1, rest, hj, hf => by
    have hread := readValue_text j fuel (restItems [] rest) hj.1 (by simp only [List.length_append, restItems, List.length_cons] at hf; omega) (restItems_ends [] rest)
    exact readItems_value hread rfl
  | j, j' :: js, fuel + 1, rest, hj, hf => by
    have hread := readValue_text j fuel (restItems (j' :: js) rest) hj.1 (by simp only [List.length_append, restItems, List.length_cons] at hf; omega) (restItems_ends _ rest)
    have hrest := readItems_text j' js fuel rest hj.2 (by simp only [List.length_append, restItems, List.length_cons] at hf ⊢; omega)
    rw [restItems] at hread ⊢
    rw [readItems_value hread rfl, if_pos rfl, hrest]
    rfl

theorem readMembers_text : ∀ (m : List Nat × Json) (ms : Members) (fuel : Nat) (rest : List Nat), ReadableMembers N (m :: ms) →
    (quote m.1 ++ 58 :: (m.2.stringify ++ restText ms [])).length < fuel →
    readMembers N fuel (quote m.1 ++ 58 :: (m.2.stringify ++ restText ms rest)) = some (m :: ms, rest)
  | _, _, 0, _, _, h => absurd h (Nat.not_lt_zero _)
  | m, [], fuel + 1, rest, hj, hf => by
    have hread := readValue_text m.2 fuel (restText [] rest) hj.1 (by simp only [List.length_append, restText, List.length_cons] at hf; omega) (restText_ends [] rest)
    exact readMembers_value hread rfl
  | m, m' :: ms, fuel + 1, rest, hj, hf => by
    have hread := readValue_text m.2 fuel (restText (m' :: ms) rest) hj.1 (by simp only [List.length_append, restText, List.length_cons] at hf; omega) (restText_ends _ rest)
    have hrest := readMembers_text m' ms fuel rest hj.2 (by simp only [List.length_append, restText, List.length_cons] at hf ⊢; omega)
    rw [restText] at hread ⊢
    rw [readMembers_value hread rfl, if_pos rfl, hrest]
    rfl
end

theorem parse_stringify (h : Readable N j) : parse N j.stringify = some j := by
  have hread := readValue_text j (j.stringify.length + 1) [] h (Nat.lt_succ_self _) ends_nil
  rw [List.append_nil] at hread
  unfold parse
  rw [hread]
  exact if_pos rfl

theorem parse_line (h : Readable N j) : parse N (j.stringify ++ [10]) = some j := by
  unfold parse
  rw [readValue_text j _ [10] h (by simp only [List.length_append, List.length_cons]; omega) (ends_cons rfl)]
  exact if_pos rfl

theorem canonicalJson_readable (h : Readable N j) : canonicalJson j = some j.sortKeys.stringify := if_pos h.finite

theorem Readable.stringify_injective {a b : Json} (ha : Readable N a) (hb : Readable N b) (h : a.stringify = b.stringify) : a = b :=
  Option.some.inj ((parse_stringify ha).symm.trans ((congrArg (parse N) h).trans (parse_stringify hb)))

end

/-! ## Integers -/

def intOf : List Nat → Int
  | 45 :: text => -(Nat.ofDigitChars 10 (text.map Char.ofNat) 0 : Nat)
  | text => (Nat.ofDigitChars 10 (text.map Char.ofNat) 0 : Nat)

theorem digits_back (n : Nat) : Nat.ofDigitChars 10 ((codes (Nat.repr n)).map Char.ofNat) 0 = n := by
  have hback : (codes (Nat.repr n)).map Char.ofNat = Nat.toDigits 10 n := by
    rw [codes, List.map_map, Nat.toList_repr]
    conv_rhs => rw [← List.map_id (Nat.toDigits 10 n)]
    exact List.map_congr_left fun c _ => Char.ofNat_toNat c
  rw [hback, Nat.ofDigitChars_ten_toDigits]

theorem digits_head {n : Nat} (h : 0 < n) : (Nat.toDigits 10 n).head? ≠ some '0' := by
  induction n using Nat.strongRecOn with
  | ind n ih =>
    by_cases hlt : n < 10
    · rw [Nat.toDigits_of_lt_base hlt]
      have hsmall : ∀ n < 10, 0 < n → [Nat.digitChar n].head? ≠ some '0' := by decide
      exact hsmall n hlt h
    · rw [Nat.toDigits_of_base_le (by decide) (by omega), List.head?_append_of_ne_nil _ Nat.toDigits_ne_nil]
      exact ih (n / 10) (by omega) (by omega)

theorem whole_literal (n : Nat) : (codes (Nat.repr n)).takeWhile isDigit = codes (Nat.repr n) ∧ (codes (Nat.repr n)).dropWhile isDigit = [] ∧
    codes (Nat.repr n) ≠ [] ∧ ((codes (Nat.repr n)).head? ≠ some 48 ∨ (codes (Nat.repr n)).length = 1) := by
  have hall := natText_digit n
  have htake := @List.takeWhile_append_of_pos _ isDigit _ [] hall
  have hdrop := @List.dropWhile_append_of_pos _ isDigit _ [] hall
  rw [List.append_nil] at htake hdrop
  refine ⟨htake.trans (List.append_nil _), hdrop, ?_, ?_⟩
  · rw [codes, Nat.toList_repr]
    exact fun h => Nat.toDigits_ne_nil (List.map_eq_nil_iff.mp h)
  · rw [codes, Nat.toList_repr]
    by_cases h : n = 0
    · right
      rw [h]
      rfl
    · left
      rw [List.head?_map]
      intro hhead
      obtain ⟨c, hc, hcode⟩ := Option.map_eq_some_iff.mp hhead
      refine digits_head (Nat.pos_of_ne_zero h) (hc.trans (congrArg some ?_))
      exact Char.toNat_inj.mp hcode

theorem intText_literal (k : Int) : isLiteral (codes (toString k)) = true := by
  have hliteral : ∀ n, (codes (Nat.repr n) ≠ [] && ((codes (Nat.repr n)).head? ≠ some 48 || (codes (Nat.repr n)).length = 1) && isFraction []) = true := by
    intro n
    obtain ⟨-, -, hne, hhead⟩ := whole_literal n
    simp only [Bool.and_eq_true, Bool.or_eq_true, decide_eq_true_eq]
    exact ⟨⟨hne, hhead⟩, rfl⟩
  cases k with
  | ofNat n =>
    show isLiteral (codes (Nat.repr n)) = true
    obtain ⟨htake, hdrop, -, -⟩ := whole_literal n
    have hsign : ∀ text, codes (Nat.repr n) = 45 :: text → False := fun text h => by
      have := natText_digit n 45 (by rw [h]; exact List.mem_cons_self)
      cases this
    unfold isLiteral
    split
    · rename_i text h
      exact (hsign text h).elim
    · dsimp only
      rw [htake, hdrop]
      exact hliteral n
  | negSucc n =>
    rw [intText_negSucc]
    obtain ⟨htake, hdrop, -, -⟩ := whole_literal (n + 1)
    show ((codes (Nat.repr (n + 1))).takeWhile isDigit ≠ [] && (((codes (Nat.repr (n + 1))).takeWhile isDigit).head? ≠ some 48 ||
      ((codes (Nat.repr (n + 1))).takeWhile isDigit).length = 1) && isFraction ((codes (Nat.repr (n + 1))).dropWhile isDigit)) = true
    rw [htake, hdrop]
    exact hliteral (n + 1)

theorem intOf_text (k : Int) : intOf (codes (toString k)) = k := by
  cases k with
  | ofNat n =>
    show intOf (codes (Nat.repr n)) = n
    unfold intOf
    split
    · rename_i text h
      have := natText_digit n 45 (by rw [h]; exact List.mem_cons_self)
      cases this
    · rw [digits_back]
  | negSucc n =>
    rw [intText_negSucc]
    show -(Nat.ofDigitChars 10 ((codes (Nat.repr (n + 1))).map Char.ofNat) 0 : Int) = _
    rw [digits_back]
    rfl

def integers : Numerals where
  valid n := ∃ k : Int, n = .int k
  safe n _ := ⟨n, rfl⟩
  value text := .int (intOf text)
  literal := by
    rintro n ⟨k, rfl⟩ -
    exact intText_literal k
  exact := by
    rintro n ⟨k, rfl⟩ -
    exact congrArg JsNumber.int (intOf_text k)

end NawaraCore.Json
