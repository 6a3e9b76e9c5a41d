import NawaraCore.Lib.JsonParseSound

/-!
# The document behind a value

A text is read with every member of its objects kept, and `JSON.parse` merges the repeated ones.
-/

namespace NawaraCore.Json

/-! ## Reading without merging -/

mutual
def nesting : Json → Nat
  | .null | .bool _ | .num _ | .str _ => 0
  | .arr items => nestingItems items
  | .obj members => nestingMembers members

def nestingItems : List Json → Nat
  | [] => 0
  | j :: js => max (j.nesting + 1) (nestingItems js)

def nestingMembers : Members → Nat
  | [] => 0
  | (_, j) :: ms => max (j.nesting + 1) (nestingMembers ms)
end

mutual
def merged : Json → Json
  | .null => .null
  | .bool b => .bool b
  | .num n => .num n
  | .str s => .str s
  | .arr items => .arr (mergedItems items)
  | .obj members => .obj (distinct (mergedMembers members))

def mergedItems : List Json → List Json
  | [] => []
  | j :: js => j.merged :: mergedItems js

def mergedMembers : Members → Members
  | [] => []
  | (k, j) :: ms => (k, j.merged) :: mergedMembers ms
end

mutual
theorem merged_self : ∀ j : Json, j.WellFormed → j.merged = j
  | .null, _ => rfl
  | .bool _, _ => rfl
  | .num _, _ => rfl
  | .str _, _ => rfl
  | .arr items, h => congrArg Json.arr (mergedItems_self items h)
  | .obj members, h => by
    rw [merged, mergedMembers_self members h.2, distinct_self h.1]

theorem mergedItems_self : ∀ js : List Json, WellFormedItems js → mergedItems js = js
  | [], _ => rfl
  | j :: js, h => by rw [mergedItems, merged_self j h.1, mergedItems_self js h.2]

theorem mergedMembers_self : ∀ ms : Members, WellFormedMembers ms → mergedMembers ms = ms
  | [], _ => rfl
  | (_, j) :: ms, h => by rw [mergedMembers, merged_self j h.1, mergedMembers_self ms h.2]
end

section
variable (N : Numerals)

def readScalar : List Nat → Option (Json × List Nat)
  | [] => none
  | c :: rest =>
    if c = 34 then (readString rest).map fun (s, rest) => (.str s, rest)
    else if c = 110 then readWord "null" .null (c :: rest)
    else if c = 116 then readWord "true" (.bool true) (c :: rest)
    else if c = 102 then readWord "false" (.bool false) (c :: rest)
    else readNumber N (c :: rest)

mutual
def readTree : Nat → List Nat → Option (Json × List Nat)
  | 0, _ => none
  | fuel + 1, text => match skipSpace text with
    | [] => none
    | c :: rest =>
      if c = 91 then
        if (skipSpace rest).head? = some 93 then some (.arr [], (skipSpace rest).tail)
        else (readTreeItems fuel rest).map fun (items, rest) => (.arr items, rest)
      else if c = 123 then
        if (skipSpace rest).head? = some 125 then some (.obj [], (skipSpace rest).tail)
        else (readTreeMembers fuel rest).map fun (members, rest) => (.obj members, rest)
      else readScalar N (c :: rest)

def readTreeItems : Nat → List Nat → Option (List Json × List Nat)
  | 0, _ => none
  | fuel + 1, text => match readTree fuel text with
    | none => none
    | some (j, rest) => match skipSpace rest with
      | [] => none
      | c :: rest =>
        if c = 44 then (readTreeItems fuel rest).map fun (js, rest) => (j :: js, rest)
        else if c = 93 then some ([j], rest)
        else none

def readTreeMembers : Nat → List Nat → Option (Members × List Nat)
  | 0, _ => none
  | fuel + 1, text => match readKey text with
    | none => none
    | some (k, rest) => match readTree fuel rest with
      | none => none
      | some (j, rest) => match skipSpace rest with
        | [] => none
        | c :: rest =>
          if c = 44 then (readTreeMembers fuel rest).map fun (ms, rest) => ((k, j) :: ms, rest)
          else if c = 125 then some ([(k, j)], rest)
          else none
end

/-- The document that `JSON.parse` reads, with the repeated members of its objects. -/
def document (text : List Nat) : Option Json :=
  match readTree N (text.length + 1) text with
  | none => none
  | some (j, rest) => if skipSpace rest = [] then some j else none

end

/-! ## What a reading takes -/

inductive Chunk : List Nat → Nat → Prop
  | plain {c : Nat} (h₁ : c ≠ 34) (h₂ : c ≠ 92) (h₃ : ¬ c < 32) : Chunk [c] c
  | escape {c u : Nat} (hc : c ≠ 117) (hu : unescape c = some u) : Chunk [92, c] u
  | unicode {digits : List Nat} {u : Nat} (hd : ∀ c ∈ digits, hexValue c ≠ none) (hr : ∀ r, readHex 4 0 (digits ++ r) = some (u, r)) :
    Chunk (92 :: 117 :: digits) u

theorem readHex_digits : ∀ {n acc u : Nat} {text rest : List Nat}, readHex n acc text = some (u, rest) →
    ∃ digits, text = digits ++ rest ∧ (∀ c ∈ digits, hexValue c ≠ none) ∧ ∀ r, readHex n acc (digits ++ r) = some (u, r)
  | 0, _, _, _, _, h => by
    cases h
    exact ⟨[], rfl, (by simp), fun _ => rfl⟩
  | _ + 1, _, _, [], _, h => by cases h
  | n + 1, acc, u, c :: text, rest, h => by
    rw [readHex] at h
    cases hc : hexValue c with
    | none =>
      rw [hc] at h
      cases h
    | some d =>
      rw [hc] at h
      obtain ⟨digits, rfl, hall, hr⟩ := readHex_digits h
      refine ⟨c :: digits, rfl, fun x hx => ?_, fun r => ?_⟩
      · rcases List.mem_cons.mp hx with rfl | hx
        · rw [hc]
          exact Option.some_ne_none d
        · exact hall x hx
      · rw [List.cons_append, readHex, hc]
        exact hr r

variable {chunk : List Nat} {u : Nat}

theorem Chunk.reads (h : Chunk chunk u) (r : List Nat) : readUnit (chunk ++ r) = some (some u, r) := by
  cases h with
  | plain h₁ h₂ h₃ => exact readUnit_plain h₁ h₂ h₃ r
  | @escape c _ hc hu =>
    show (readEscape (c :: r)).map _ = _
    rw [readEscape, if_neg hc, hu]
    rfl
  | @unicode digits _ _ hr =>
    show (readHex 4 0 (digits ++ r)).map _ = _
    rw [hr]
    rfl

variable {text rest body s : List Nat}

theorem readUnit_chunk (h : readUnit text = some (some u, rest)) : ∃ chunk, Chunk chunk u ∧ text = chunk ++ rest := by
  cases text with
  | nil => cases h
  | cons c text =>
    rw [readUnit] at h
    by_cases h34 : c = 34
    · rw [if_pos h34] at h
      cases h
    · rw [if_neg h34] at h
      by_cases h92 : c = 92
      · rw [if_pos h92] at h
        obtain ⟨⟨v, r⟩, he, hp⟩ := Option.map_eq_some_iff.mp h
        cases hp
        subst h92
        cases text with
        | nil => cases he
        | cons d text =>
          rw [readEscape] at he
          by_cases hd : d = 117
          · rw [if_pos hd] at he
            obtain ⟨digits, rfl, hall, hr⟩ := readHex_digits he
            exact ⟨_, .unicode hall hr, by rw [hd]; rfl⟩
          · rw [if_neg hd] at he
            obtain ⟨v, hv, hp⟩ := Option.map_eq_some_iff.mp he
            cases hp
            exact ⟨_, .escape hd hv, rfl⟩
      · rw [if_neg h92] at h
        by_cases h32 : c < 32
        · rw [if_pos h32] at h
          cases h
        · rw [if_neg h32] at h
          cases h
          exact ⟨_, .plain h34 h92 h32, rfl⟩

theorem Chunk.length_pos (h : Chunk chunk u) : 0 < chunk.length := by
  cases h <;> exact Nat.succ_pos _

inductive Spells : List Nat → List Nat → Prop
  | nil : Spells [] []
  | cons {chunk body s : List Nat} {u : Nat} (hc : Chunk chunk u) (hs : Spells body s) : Spells (chunk ++ body) (u :: s)

theorem Spells.length_le (h : Spells body s) : s.length ≤ body.length := by
  induction h with
  | nil => exact Nat.le_refl _
  | cons hc _ ih =>
    have := hc.length_pos
    rw [List.length_append, List.length_cons]
    omega

theorem Spells.units (h : Spells body s) : ∀ (fuel : Nat) (rest : List Nat), s.length < fuel → readUnits fuel (body ++ 34 :: rest) = some (s, rest) := by
  induction h with
  | nil =>
    intro fuel rest hf
    obtain ⟨fuel, rfl⟩ := Nat.exists_eq_succ_of_ne_zero (Nat.ne_of_gt hf)
    rfl
  | cons hc _ ih =>
    intro fuel rest hf
    obtain ⟨fuel, rfl⟩ := Nat.exists_eq_succ_of_ne_zero (Nat.ne_of_gt (Nat.zero_lt_of_lt hf))
    rw [List.append_assoc, readUnits_cons (hc.reads _), ih fuel rest (Nat.lt_of_succ_lt_succ hf)]
    rfl

theorem Spells.reads (h : Spells body s) (rest : List Nat) : readString (body ++ 34 :: rest) = some (s, rest) := by
  refine h.units _ rest ?_
  have := h.length_le
  rw [List.length_append]
  omega

theorem readUnits_spells : ∀ {fuel : Nat} {text s rest : List Nat}, readUnits fuel text = some (s, rest) → ∃ body, Spells body s ∧ text = body ++ 34 :: rest
  | 0, _, _, _, h => by cases h
  | fuel + 1, text, s, rest, h => by
    rw [readUnits] at h
    cases hu : readUnit text with
    | none =>
      rw [hu] at h
      cases h
    | some p =>
      obtain ⟨o, r⟩ := p
      rw [hu] at h
      cases o with
      | none =>
        cases h
        refine ⟨[], .nil, ?_⟩
        cases text with
        | nil => cases hu
        | cons c text =>
          rw [readUnit] at hu
          split at hu
          · rename_i hc
            cases hu
            rw [hc]
            rfl
          · split at hu
            · obtain ⟨_, -, hp⟩ := Option.map_eq_some_iff.mp hu
              cases hp
            · split at hu <;> cases hu
      | some u =>
        obtain ⟨⟨t, r'⟩, ht, hp⟩ := Option.map_eq_some_iff.mp h
        cases hp
        obtain ⟨chunk, hc, rfl⟩ := readUnit_chunk hu
        obtain ⟨body, hb, rfl⟩ := readUnits_spells ht
        exact ⟨chunk ++ body, .cons hc hb, (List.append_assoc ..).symm⟩

theorem readString_iff : readString text = some (s, rest) ↔ ∃ body, Spells body s ∧ text = body ++ 34 :: rest := by
  constructor
  · exact readUnits_spells
  · rintro ⟨body, hb, rfl⟩
    exact hb.reads rest

theorem readString_shorter (h : readString text = some (s, rest)) : rest.length < text.length := by
  obtain ⟨body, -, rfl⟩ := readString_iff.mp h
  rw [List.length_append, List.length_cons]
  omega

theorem skipSpace_length (text : List Nat) : (skipSpace text).length ≤ text.length := (List.dropWhile_suffix _).length_le

variable {c : Nat}

theorem skipSpace_shorter (h : skipSpace text = c :: rest) : rest.length < text.length := by
  have := skipSpace_length text
  rw [h] at this
  exact this

theorem readKey_shorter {k : List Nat} (h : readKey text = some (k, rest)) : rest.length < text.length := by
  unfold readKey at h
  cases hs : skipSpace text with
  | nil =>
    rw [hs] at h
    cases h
  | cons c t =>
    rw [hs] at h
    dsimp only at h
    split at h
    · cases hr : readString t with
      | none =>
        rw [hr] at h
        cases h
      | some p =>
        rw [hr] at h
        dsimp only at h
        split at h
        · cases h
        · rename_i d u hu
          split at h
          · cases h
            have := skipSpace_shorter hs
            have := readString_shorter hr
            have := skipSpace_shorter hu
            omega
          · cases h
    · cases h

section
variable {N : Numerals}

theorem readWord_ok {word : String} {j k : Json} (h : readWord word k text = some (j, rest)) : j = k ∧ text = codes word ++ rest := by
  unfold readWord at h
  split at h
  · rename_i hp
    obtain ⟨rfl, rfl⟩ := Prod.mk.inj (Option.some.inj h)
    obtain ⟨r, rfl⟩ := hp
    rw [List.drop_left]
    exact ⟨rfl, rfl⟩
  · cases h

structure IsScalar (j : Json) (text rest : List Nat) : Prop where
  wellFormed : j.WellFormed
  flat : j.nesting = 0
  shorter : rest.length < text.length

theorem readScalar_isScalar {j : Json} (h : readScalar N text = some (j, rest)) : IsScalar j text rest := by
  have hword : ∀ {word : String} {k : Json} {t : List Nat}, readWord word k t = some (j, rest) → 0 < (codes word).length → k.WellFormed ∧ k.nesting = 0 →
      IsScalar j t rest := by
    intro word k t hw hc hk
    obtain ⟨rfl, rfl⟩ := readWord_ok hw
    refine ⟨hk.1, hk.2, ?_⟩
    rw [List.length_append]
    omega
  unfold readScalar at h
  split at h
  · cases h
  · split at h
    · obtain ⟨_, hr, he⟩ := Option.map_eq_some_iff.mp h
      cases he
      exact ⟨trivial, rfl, Nat.lt_succ_of_lt (readString_shorter hr)⟩
    · split at h
      · exact hword h (by decide) ⟨trivial, rfl⟩
      · split at h
        · exact hword h (by decide) ⟨trivial, rfl⟩
        · split at h
          · exact hword h (by decide) ⟨trivial, rfl⟩
          · unfold readNumber at h
            dsimp only at h
            split at h
            · rename_i c text _ _ _ _ hl
              cases h
              obtain ⟨d, l, hd, -⟩ := literal_head hl
              refine ⟨trivial, rfl, ?_⟩
              have hlen := congrArg List.length (List.takeWhile_append_dropWhile (p := literalChar) (l := c :: text))
              rw [hd, List.length_append, List.length_cons] at hlen
              omega
            · cases h

theorem readValue_tree : ∀ fuel : Nat,
    (∀ text, readValue N fuel text = (readTree N fuel text).map fun (j, rest) => (j.merged, rest)) ∧
    (∀ text, readItems N fuel text = (readTreeItems N fuel text).map fun (js, rest) => (mergedItems js, rest)) ∧
    ∀ text, readMembers N fuel text = (readTreeMembers N fuel text).map fun (ms, rest) => (mergedMembers ms, rest)
  | 0 => ⟨fun _ => rfl, fun _ => rfl, fun _ => rfl⟩
  | fuel + 1 => by
    obtain ⟨hv, hi, hm⟩ := readValue_tree fuel
    refine ⟨fun text => ?_, fun text => ?_, fun text => ?_⟩
    · rw [readValue, readTree]
      cases skipSpace text with
      | nil => rfl
      | cons c rest =>
        have hscalar : (readScalar N (c :: rest)).map (fun p : Json × List Nat => (p.1.merged, p.2)) = readScalar N (c :: rest) := by
          cases hs : readScalar N (c :: rest) with
          | none => rfl
          | some p => exact congrArg some (Prod.ext (merged_self _ (readScalar_isScalar hs).wellFormed) rfl)
        dsimp only
        by_cases h91 : c = 91
        · subst h91
          simp only [Nat.reduceEqDiff, if_false, if_true, hi]
          split
          · rfl
          · cases readTreeItems N fuel rest <;> rfl
        · by_cases h123 : c = 123
          · subst h123
            simp only [Nat.reduceEqDiff, if_false, if_true, hm]
            split
            · rfl
            · cases readTreeMembers N fuel rest <;> rfl
          · rw [if_neg h91, if_neg h123, if_neg h91, if_neg h123]
            exact hscalar.symm
    · rw [readItems, readTreeItems, hv]
      cases readTree N fuel text with
      | none => rfl
      | some p =>
        dsimp only [Option.map_some]
        cases skipSpace p.2 with
        | nil => rfl
        | cons c rest =>
          dsimp only
          split
          · rw [hi]
            cases readTreeItems N fuel rest <;> rfl
          · split <;> rfl
    · rw [readMembers, readTreeMembers]
      cases readKey text with
      | none => rfl
      | some q =>
        dsimp only
        rw [hv]
        cases readTree N fuel q.2 with
        | none => rfl
        | some p =>
          dsimp only [Option.map_some]
          cases skipSpace p.2 with
          | nil => rfl
          | cons c rest =>
            dsimp only
            split
            · rw [hm]
              cases readTreeMembers N fuel rest <;> rfl
            · split <;> rfl

theorem parse_document (text : List Nat) : parse N text = (document N text).map merged := by
  unfold parse document
  rw [(readValue_tree _).1]
  cases readTree N (text.length + 1) text with
  | none => rfl
  | some p =>
    dsimp only [Option.map_some]
    split <;> rfl

inductive TreeStep (N : Numerals) (n : Nat) (text : List Nat) : Json → List Nat → Prop
  | emptyArr {t rest : List Nat} (hs : skipSpace text = 91 :: t) (he : skipSpace t = 93 :: rest) : TreeStep N n text (.arr []) rest
  | arr {t rest : List Nat} {js : List Json} (hs : skipSpace text = 91 :: t) (he : (skipSpace t).head? ≠ some 93)
    (hi : readTreeItems N n t = some (js, rest)) : TreeStep N n text (.arr js) rest
  | emptyObj {t rest : List Nat} (hs : skipSpace text = 123 :: t) (he : skipSpace t = 125 :: rest) : TreeStep N n text (.obj []) rest
  | obj {t rest : List Nat} {ms : Members} (hs : skipSpace text = 123 :: t) (he : (skipSpace t).head? ≠ some 125)
    (hm : readTreeMembers N n t = some (ms, rest)) : TreeStep N n text (.obj ms) rest
  | scalar {c : Nat} {t rest : List Nat} {j : Json} (hs : skipSpace text = c :: t) (h₁ : c ≠ 91) (h₂ : c ≠ 123)
    (h : readScalar N (c :: t) = some (j, rest)) : TreeStep N n text j rest

inductive Follows {α : Type} (close : Nat) (read : List Nat → Option (List α × List Nat)) (t : List Nat) : List α → List Nat → Prop
  | last {rest : List Nat} (hs : skipSpace t = close :: rest) : Follows close read t [] rest
  | more {u rest : List Nat} {as : List α} (hs : skipSpace t = 44 :: u) (hr : read u = some (as, rest)) : Follows close read t as rest

variable {t : List Nat}

theorem head_of_cons (h : t = c :: rest) : t.head? = some c ∧ t.tail = rest := by
  rw [h]
  exact ⟨rfl, rfl⟩

theorem cons_of_head (h : t.head? = some c) : t = c :: t.tail := (List.cons_head?_tail h).symm

variable {n : Nat}

theorem readTree_succ {j : Json} : readTree N (n + 1) text = some (j, rest) ↔ TreeStep N n text j rest := by
  rw [readTree]
  constructor
  · intro h
    split at h
    · cases h
    · rename_i c t hs
      split at h
      · rename_i hc
        subst hc
        split at h
        · rename_i he
          cases h
          exact .emptyArr hs (cons_of_head he)
        · rename_i he
          obtain ⟨⟨js, r⟩, hr, hp⟩ := Option.map_eq_some_iff.mp h
          cases hp
          exact .arr hs he hr
      · rename_i h91
        split at h
        · rename_i hc
          subst hc
          split at h
          · rename_i he
            cases h
            exact .emptyObj hs (cons_of_head he)
          · rename_i he
            obtain ⟨⟨ms, r⟩, hr, hp⟩ := Option.map_eq_some_iff.mp h
            cases hp
            exact .obj hs he hr
        · rename_i h123
          exact .scalar hs h91 h123 h
  · intro h
    cases h with
    | emptyArr hs he =>
      obtain ⟨hhead, htail⟩ := head_of_cons he
      simp only [hs, if_true, hhead, htail]
    | arr hs he hi => simp only [hs, if_true, if_neg he, hi, Option.map_some]
    | emptyObj hs he =>
      obtain ⟨hhead, htail⟩ := head_of_cons he
      simp only [hs, Nat.reduceEqDiff, if_false, if_true, hhead, htail]
    | obj hs he hm => simp only [hs, Nat.reduceEqDiff, if_false, if_true, if_neg he, hm, Option.map_some]
    | scalar hs h₁ h₂ h => simp only [hs, if_neg h₁, if_neg h₂, h]

theorem readTreeItems_succ {js : List Json} : readTreeItems N (n + 1) text = some (js, rest) ↔
    ∃ j t js', readTree N n text = some (j, t) ∧ Follows 93 (readTreeItems N n) t js' rest ∧ js = j :: js' := by
  rw [readTreeItems]
  constructor
  · intro h
    split at h
    · cases h
    · rename_i j t hj
      split at h
      · cases h
      · rename_i c u hs
        split at h
        · rename_i hc
          subst hc
          obtain ⟨⟨js', r⟩, hr, hp⟩ := Option.map_eq_some_iff.mp h
          cases hp
          exact ⟨j, t, js', hj, .more hs hr, rfl⟩
        · split at h
          · rename_i hc
            subst hc
            cases h
            exact ⟨j, t, [], hj, .last hs, rfl⟩
          · cases h
  · rintro ⟨j, t, js', hj, hf, rfl⟩
    cases hf with
    | last hs => simp only [hj, hs, Nat.reduceEqDiff, if_false, if_true]
    | more hs hr => simp only [hj, hs, if_true, hr, Option.map_some]

theorem readTreeMembers_succ {ms : Members} : readTreeMembers N (n + 1) text = some (ms, rest) ↔
    ∃ k x j t ms', readKey text = some (k, x) ∧ readTree N n x = some (j, t) ∧ Follows 125 (readTreeMembers N n) t ms' rest ∧ ms = (k, j) :: ms' := by
  rw [readTreeMembers]
  constructor
  · intro h
    split at h
    · cases h
    · rename_i k x hk
      split at h
      · cases h
      · rename_i j t hj
        split at h
        · cases h
        · rename_i c u hs
          split at h
          · rename_i hc
            subst hc
            obtain ⟨⟨ms', r⟩, hr, hp⟩ := Option.map_eq_some_iff.mp h
            cases hp
            exact ⟨k, x, j, t, ms', hk, hj, .more hs hr, rfl⟩
          · split at h
            · rename_i hc
              subst hc
              cases h
              exact ⟨k, x, j, t, [], hk, hj, .last hs, rfl⟩
            · cases h
  · rintro ⟨k, x, j, t, ms', hk, hj, hf, rfl⟩
    cases hf with
    | last hs => simp only [hk, hj, hs, Nat.reduceEqDiff, if_false, if_true]
    | more hs hr => simp only [hk, hj, hs, if_true, hr, Option.map_some]

def Fuelled {α : Type} (read : Nat → List Nat → Option (α × List Nat)) (n : Nat) : Prop :=
  ∀ text a rest, read n text = some (a, rest) → rest.length < text.length ∧ ∀ f, text.length ≤ rest.length + f → read f text = some (a, rest)

theorem Follows.fuelled {α : Type} {close n : Nat} {read : Nat → List Nat → Option (List α × List Nat)} {as : List α}
    (hr : Fuelled read n) (h : Follows close (read n) t as rest) :
    rest.length < t.length ∧ ∀ f, t.length ≤ rest.length + (f + 1) → Follows close (read f) t as rest := by
  cases h with
  | last hs => exact ⟨skipSpace_shorter hs, fun f _ => .last hs⟩
  | more hs h =>
    have hlt := skipSpace_shorter hs
    obtain ⟨hlt', hf⟩ := hr _ _ _ h
    exact ⟨by omega, fun f hle => .more hs (hf f (by omega))⟩

theorem readTree_fuel : ∀ n : Nat, Fuelled (readTree N) n ∧ Fuelled (readTreeItems N) n ∧ Fuelled (readTreeMembers N) n
  | 0 => ⟨nofun, nofun, nofun⟩
  | n + 1 => by
    obtain ⟨hv, hi, hm⟩ := readTree_fuel n
    have fuelled : ∀ {α : Type} {text rest : List Nat} {read : Nat → Option (α × List Nat)} {a : α}, rest.length < text.length →
        (∀ f, text.length ≤ rest.length + (f + 1) → read (f + 1) = some (a, rest)) →
        rest.length < text.length ∧ ∀ f, text.length ≤ rest.length + f → read f = some (a, rest) := by
      intro α text rest read a hlt hf
      refine ⟨hlt, fun f hle => ?_⟩
      cases f with
      | zero => omega
      | succ f => exact hf f hle
    refine ⟨fun text j rest h => ?_, fun text js rest h => ?_, fun text ms rest h => ?_⟩
    · cases readTree_succ.mp h with
      | emptyArr hs he =>
        have := skipSpace_shorter hs
        have := skipSpace_shorter he
        exact fuelled (by omega) fun f _ => readTree_succ.mpr (.emptyArr hs he)
      | arr hs he h =>
        have := skipSpace_shorter hs
        obtain ⟨hlt, hf⟩ := hi _ _ _ h
        exact fuelled (by omega) fun f _ => readTree_succ.mpr (.arr hs he (hf f (by omega)))
      | emptyObj hs he =>
        have := skipSpace_shorter hs
        have := skipSpace_shorter he
        exact fuelled (by omega) fun f _ => readTree_succ.mpr (.emptyObj hs he)
      | obj hs he h =>
        have := skipSpace_shorter hs
        obtain ⟨hlt, hf⟩ := hm _ _ _ h
        exact fuelled (by omega) fun f _ => readTree_succ.mpr (.obj hs he (hf f (by omega)))
      | scalar hs h₁ h₂ h =>
        have hle := skipSpace_length text
        have := (readScalar_isScalar h).shorter
        rw [hs] at hle
        exact fuelled (by omega) fun f _ => readTree_succ.mpr (.scalar hs h₁ h₂ h)
    · obtain ⟨j, t, js', hj, hrest, rfl⟩ := readTreeItems_succ.mp h
      obtain ⟨hlt, hf⟩ := hv _ _ _ hj
      obtain ⟨hlt', hf'⟩ := hrest.fuelled hi
      exact fuelled (by omega) fun f _ => readTreeItems_succ.mpr ⟨j, t, js', hf f (by omega), hf' f (by omega), rfl⟩
    · obtain ⟨k, x, j, t, ms', hk, hj, hrest, rfl⟩ := readTreeMembers_succ.mp h
      have hltk := readKey_shorter hk
      obtain ⟨hlt, hf⟩ := hv _ _ _ hj
      obtain ⟨hlt', hf'⟩ := hrest.fuelled hm
      exact fuelled (by omega) fun f _ => readTreeMembers_succ.mpr ⟨k, x, j, t, ms', hk, hf f (by omega), hf' f (by omega), rfl⟩

end

end NawaraCore.Json
