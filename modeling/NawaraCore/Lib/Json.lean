import Mathlib.Algebra.BigOperators.Group.List.Basic
import Mathlib.Algebra.GroupWithZero.Nat
import Mathlib.Data.List.Lex
import NawaraCore.Lib.Token

/-!
# JSON values

Values as a document gives them, their text, and the bytes of a text. A string is its
UTF-16 code units, so that a unit without its pair is a string too.
-/

namespace NawaraCore

/-- A number: an integer that prints in plain digits, or the text it prints as. -/
inductive JsNumber
  | int (n : Int)
  | other (text : List Nat) (finite : Bool)
  deriving DecidableEq

/-- A value. The members of an object stand in the order of its properties. -/
inductive Json
  | null
  | bool (b : Bool)
  | num (n : JsNumber)
  | str (s : List Nat)
  | arr (items : List Json)
  | obj (members : List (List Nat × Json))

abbrev Members := List (List Nat × Json)

namespace Json

mutual
def WellFormed : Json → Prop
  | .null | .bool _ | .num _ | .str _ => True
  | .arr items => WellFormedItems items
  | .obj members => (members.map Prod.fst).Nodup ∧ WellFormedMembers members

def WellFormedItems : List Json → Prop
  | [] => True
  | j :: js => WellFormed j ∧ WellFormedItems js

def WellFormedMembers : Members → Prop
  | [] => True
  | (_, j) :: ms => WellFormed j ∧ WellFormedMembers ms
end

theorem WellFormedMembers.of_mem {ms : Members} (h : WellFormedMembers ms) {m : List Nat × Json} (hm : m ∈ ms) : m.2.WellFormed := by
  induction ms with
  | nil => cases hm
  | cons a ms ih =>
    obtain ⟨k, j⟩ := a
    rcases List.mem_cons.mp hm with rfl | hm
    · exact h.1
    · exact ih h.2 hm

end Json

/-- A value no object of which has a key twice. -/
abbrev JsonValue := { j : Json // j.WellFormed }

namespace Json

def hexDigit (n : Nat) : Nat := if n < 10 then 48 + n else 87 + n

def unicodeEscape (c : Nat) : List Nat :=
  [92, 117, hexDigit (c / 4096 % 16), hexDigit (c / 256 % 16), hexDigit (c / 16 % 16), hexDigit (c % 16)]

def isHigh (c : Nat) : Bool := decide (55296 ≤ c) && decide (c < 56320)

def isLow (c : Nat) : Bool := decide (56320 ≤ c) && decide (c < 57344)

def quoteUnit (c : Nat) : List Nat :=
  if c = 34 ∨ c = 92 then [92, c]
  else if c = 8 then [92, 98]
  else if c = 9 then [92, 116]
  else if c = 10 then [92, 110]
  else if c = 12 then [92, 102]
  else if c = 13 then [92, 114]
  else if c < 32 ∨ isHigh c ∨ isLow c then unicodeEscape c
  else [c]

def quoteUnits : List Nat → List Nat
  | [] => []
  | [c] => quoteUnit c
  | c :: d :: ds => if isHigh c && isLow d then c :: d :: quoteUnits ds else quoteUnit c ++ quoteUnits (d :: ds)

def quote (s : List Nat) : List Nat := 34 :: quoteUnits s ++ [34]

def numberText : JsNumber → List Nat
  | .int n => codes (toString n)
  | .other text finite => if finite then text else codes "null"

mutual
def stringify : Json → List Nat
  | .null => codes "null"
  | .bool b => if b then codes "true" else codes "false"
  | .num n => numberText n
  | .str s => quote s
  | .arr items => 91 :: [44].intercalate (itemTexts items) ++ [93]
  | .obj members => 123 :: [44].intercalate (memberTexts members) ++ [125]

def itemTexts : List Json → List (List Nat)
  | [] => []
  | j :: js => stringify j :: itemTexts js

def memberTexts : Members → List (List Nat)
  | [] => []
  | (k, j) :: ms => (quote k ++ 58 :: stringify j) :: memberTexts ms
end

def utf8Unit (c : Nat) : List Nat :=
  if c < 128 then [c]
  else if c < 2048 then [192 + c / 64, 128 + c % 64]
  else if isHigh c || isLow c then [239, 191, 189]
  else [224 + c / 4096, 128 + c / 64 % 64, 128 + c % 64]

def utf8Pair (c d : Nat) : List Nat :=
  let p := 65536 + (c - 55296) * 1024 + (d - 56320)
  [240 + p / 262144, 128 + p / 4096 % 64, 128 + p / 64 % 64, 128 + p % 64]

def utf8 : List Nat → List Nat
  | [] => []
  | [c] => utf8Unit c
  | c :: d :: ds => if isHigh c && isLow d then utf8Pair c d ++ utf8 ds else utf8Unit c ++ utf8 (d :: ds)

def keyLe (a b : List Nat × List Nat) : Bool := decide (a.1.length < b.1.length) || (decide (a.1.length = b.1.length) && decide (a.1 ≤ b.1))

mutual
def jsonbText : Json → List Nat
  | .null => codes "null"
  | .bool b => if b then codes "true" else codes "false"
  | .num n => numberText n
  | .str s => quote s
  | .arr items => 91 :: [44, 32].intercalate (jsonbItems items) ++ [93]
  | .obj members => 123 :: [44, 32].intercalate (((jsonbMembers members).mergeSort keyLe).map fun m => quote m.1 ++ 58 :: 32 :: m.2) ++ [125]

def jsonbItems : List Json → List (List Nat)
  | [] => []
  | j :: js => jsonbText j :: jsonbItems js

def jsonbMembers : Members → List (List Nat × List Nat)
  | [] => []
  | (k, j) :: ms => (k, jsonbText j) :: jsonbMembers ms
end

mutual
def sortKeys : Json → Json
  | .arr items => .arr (sortItems items)
  | .obj members => .obj ((sortMembers members).mergeSort fun a b => decide (a.1 ≤ b.1))
  | j => j

def sortItems : List Json → List Json
  | [] => []
  | j :: js => sortKeys j :: sortItems js

def sortMembers : Members → Members
  | [] => []
  | (k, j) :: ms => (k, sortKeys j) :: sortMembers ms
end

/-! ## Lengths -/

theorem memberTexts_eq (ms : Members) : memberTexts ms = ms.map fun m => quote m.1 ++ 58 :: stringify m.2 := by
  induction ms with
  | nil => rfl
  | cons m ms ih => rw [memberTexts, ih, List.map_cons]

theorem jsonbMembers_eq (ms : Members) : jsonbMembers ms = ms.map fun m => (m.1, jsonbText m.2) := by
  induction ms with
  | nil => rfl
  | cons m ms ih => rw [jsonbMembers, ih, List.map_cons]

theorem length_intercalate (sep : List Nat) (ls : List (List Nat)) :
    (sep.intercalate ls).length = (ls.map List.length).sum + sep.length * (ls.length - 1) := by
  induction ls with
  | nil => rfl
  | cons l ls ih =>
    cases ls with
    | nil => simp [List.intercalate]
    | cons m ls =>
      rw [List.intercalate_cons_of_ne_nil (by simp), List.length_append, List.length_append, ih]
      simp only [List.map_cons, List.sum_cons, List.length_cons]
      have : ls.length + 1 + 1 - 1 = (ls.length + 1 - 1) + 1 := by omega
      rw [this, Nat.mul_add, Nat.mul_one]
      omega

def memberSize (m : List Nat × Json) : Nat := (quote m.1).length + 1 + (stringify m.2).length

theorem length_stringify_obj (ms : Members) : (stringify (.obj ms)).length = 2 + (ms.map memberSize).sum + (ms.length - 1) := by
  rw [stringify, List.cons_append, List.length_cons, List.length_append, length_intercalate, memberTexts_eq]
  have hsum : ((ms.map fun m => quote m.1 ++ 58 :: stringify m.2).map List.length).sum = (ms.map memberSize).sum := by
    rw [List.map_map]
    congr 1
    exact List.map_congr_left fun m _ => by simp [memberSize]; omega
  rw [hsum]
  simp only [List.length_map, List.length_cons, List.length_nil]
  omega

theorem length_jsonbText_obj (ms : Members) :
    (jsonbText (.obj ms)).length = 2 + (ms.map fun m => (quote m.1).length + 2 + (jsonbText m.2).length).sum + 2 * (ms.length - 1) := by
  rw [jsonbText, List.cons_append, List.length_cons, List.length_append, length_intercalate]
  have hperm := (List.mergeSort_perm (jsonbMembers ms) keyLe).map fun m => (quote m.1 ++ 58 :: 32 :: m.2).length
  have hsum : ((((jsonbMembers ms).mergeSort keyLe).map fun m => quote m.1 ++ 58 :: 32 :: m.2).map List.length).sum =
      (ms.map fun m => (quote m.1).length + 2 + (jsonbText m.2).length).sum := by
    rw [List.map_map]
    refine hperm.sum_eq.trans ?_
    rw [jsonbMembers_eq, List.map_map]
    congr 1
    exact List.map_congr_left fun m _ => by simp; omega
  rw [hsum]
  simp only [List.length_map, List.length_mergeSort, jsonbMembers_eq, List.length_cons, List.length_nil]
  omega

variable {keys : List (List Nat)}

theorem sum_indicator {k : List Nat} (hk : keys.Nodup) (h : k ∈ keys) (c : Nat) :
    (keys.map fun a => if a = k then c else 0).sum = c := by
  induction keys with
  | nil => cases h
  | cons a keys ih =>
    obtain ⟨hnot, hk⟩ := List.nodup_cons.mp hk
    rw [List.map_cons, List.sum_cons]
    by_cases ha : a = k
    · have hrest : (keys.map fun a => if a = k then c else 0).sum = 0 := by
        refine List.sum_eq_zero fun x hx => ?_
        obtain ⟨b, hb, rfl⟩ := List.mem_map.mp hx
        exact if_neg fun e => hnot (by rw [ha, ← e]; exact hb)
      rw [if_pos ha, hrest, Nat.add_zero]
    · rw [if_neg ha, ih hk ((List.mem_cons.mp h).resolve_left fun e => ha e.symm), Nat.zero_add]

theorem sum_members {ms : Members} (hn : (ms.map Prod.fst).Nodup) (hk : keys.Nodup) (h : ∀ m ∈ ms, m.1 ∈ keys)
    (f : List Nat × Json → Nat) : (ms.map f).sum = (keys.map fun k => (ms.lookup k).elim 0 fun j => f (k, j)).sum := by
  induction ms with
  | nil => simp
  | cons m ms ih =>
    obtain ⟨k, j⟩ := m
    obtain ⟨hnot, hn⟩ := List.nodup_cons.mp hn
    rw [List.map_cons, List.sum_cons, ih hn fun m hm => h m (List.mem_cons_of_mem _ hm)]
    have hnone : ms.lookup k = none := by
      rw [List.lookup_eq_none_iff]
      intro p hp
      have : k ≠ p.1 := fun e => hnot (by rw [e]; exact List.mem_map.mpr ⟨p, hp, rfl⟩)
      simpa using this
    have hsplit : ∀ a, (((k, j) :: ms).lookup a).elim 0 (fun v => f (a, v)) =
        (if a = k then f (k, j) else 0) + (ms.lookup a).elim 0 fun v => f (a, v) := by
      intro a
      by_cases hak : a = k
      · subst hak
        simp [hnone]
      · have : (a == k) = false := by simpa using hak
        simp [List.lookup_cons, hak, this]
    rw [List.map_congr_left fun a _ => hsplit a, List.sum_map_add, sum_indicator hk (h (k, j) List.mem_cons_self)]

end Json

end NawaraCore
