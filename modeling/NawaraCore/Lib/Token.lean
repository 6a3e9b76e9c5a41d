import Mathlib.Data.List.Basic

/-!
# Tokens

The value grammars of a wire contract over the codes of a text: a first character of
one class followed by a bounded number of another, dotted names, and texts with a
class for each position.
-/

namespace NawaraCore

instance lawfulCodes : LawfulBEq (List Nat) := inferInstance

def codes (s : String) : List Nat := s.toList.map Char.toNat

theorem codes_ofList (l : List Char) : codes (String.ofList l) = l.map Char.toNat := by
  rw [codes, String.toList_ofList]

theorem codes_injective {s t : String} (h : codes s = codes t) : s = t :=
  String.toList_inj.mp (List.map_injective_iff.mpr (fun _ _ => Char.toNat_inj.mp) h)

def isLower (c : Nat) : Bool := decide (97 ≤ c) && decide (c ≤ 122)

def isUpper (c : Nat) : Bool := decide (65 ≤ c) && decide (c ≤ 90)

def isDigit (c : Nat) : Bool := decide (48 ≤ c) && decide (c ≤ 57)

def isAlnum (c : Nat) : Bool := isLower c || isUpper c || isDigit c

def isHexLower (c : Nat) : Bool := isDigit c || (decide (97 ≤ c) && decide (c ≤ 102))

def oneOf (s : String) (c : Nat) : Bool := (codes s).contains c

theorem oneOf_iff {s : String} {c : Nat} : oneOf s c = true ↔ c ∈ codes s := by simp [oneOf]

def wordChar (c : Nat) : Bool := isLower c || isDigit c || oneOf "_" c

def idChar (c : Nat) : Bool := isAlnum c || oneOf "._:-" c

/-- A character of the class `head`, then between `lo` and `hi` characters of the class `tail`. -/
def isToken (head tail : Nat → Bool) (lo hi : Nat) : List Nat → Bool
  | [] => false
  | c :: cs => head c && cs.all tail && decide (lo ≤ cs.length) && decide (cs.length ≤ hi)

section
variable {head tail head' tail' : Nat → Bool} {lo hi lo' hi' : Nat} {s : List Nat}

theorem isToken_iff : isToken head tail lo hi s = true ↔
    ∃ c cs, s = c :: cs ∧ head c = true ∧ (∀ d ∈ cs, tail d = true) ∧ lo ≤ cs.length ∧ cs.length ≤ hi := by
  cases s with
  | nil => simp [isToken]
  | cons c cs => simp [isToken, and_assoc]

theorem isToken_mono (hh : ∀ c, head c = true → head' c = true) (ht : ∀ c, tail c = true → tail' c = true) (hlo : lo' ≤ lo) (hhi : hi ≤ hi')
    (h : isToken head tail lo hi s = true) : isToken head' tail' lo' hi' s = true := by
  obtain ⟨c, cs, hs, hc, hcs, hl, hu⟩ := isToken_iff.mp h
  exact isToken_iff.mpr ⟨c, cs, hs, hh c hc, fun d hd => ht d (hcs d hd), Nat.le_trans hlo hl, Nat.le_trans hu hhi⟩

end

def isDotted (head tail : Nat → Bool) (s : List Nat) : Bool :=
  let parts := s.splitOn 46
  decide (2 ≤ parts.length) && parts.all fun p => match p with
    | [] => false
    | c :: cs => head c && cs.all tail

theorem isDotted_append {head tail : Nat → Bool} {c : Nat} {cs s : List Nat} (hc : head c = true) (hcs : ∀ d ∈ cs, tail d = true)
    (hdot : ∀ d ∈ c :: cs, d ≠ 46) (h : isDotted head tail s = true) : isDotted head tail (c :: cs ++ 46 :: s) = true := by
  simp only [isDotted, Bool.and_eq_true, decide_eq_true_eq, List.all_eq_true] at h ⊢
  have hsplit : (c :: cs ++ 46 :: s).splitOn 46 = [c :: cs] ++ s.splitOn 46 := by
    have hfirst : (c :: cs).splitOnP (· == 46) = [c :: cs] := List.splitOnP_eq_singleton fun d hd => by simpa using hdot d hd
    have := List.splitOnP_append_cons (p := (· == 46)) (c :: cs) s (by decide : (46 == 46) = true)
    rw [hfirst] at this
    exact this
  rw [hsplit]
  refine ⟨by simp only [List.length_append, List.length_singleton]; omega, fun p hp => ?_⟩
  rcases List.mem_append.mp hp with hp | hp
  · rw [List.mem_singleton.mp hp]
    simpa [hc] using hcs
  · exact h.2 p hp

def isShape : List (Nat → Bool) → List Nat → Bool
  | [], [] => true
  | p :: ps, c :: cs => p c && isShape ps cs
  | _, _ => false

variable {ps : List (Nat → Bool)} {s : List Nat}

theorem isShape_length (h : isShape ps s = true) : s.length = ps.length := by
  induction ps generalizing s with
  | nil => cases s with
    | nil => rfl
    | cons c cs => cases h
  | cons p ps ih => cases s with
    | nil => cases h
    | cons c cs => simp only [isShape, Bool.and_eq_true] at h; simp [ih h.2]

variable {q : Nat → Bool}

theorem isShape_all (h : isShape ps s = true)
    (hq : ∀ p ∈ ps, ∀ c, p c = true → q c = true) : ∀ c ∈ s, q c = true := by
  induction ps generalizing s with
  | nil => cases s with
    | nil => simp
    | cons c cs => cases h
  | cons p ps ih => cases s with
    | nil => cases h
    | cons c cs =>
      simp only [isShape, Bool.and_eq_true] at h
      intro d hd
      rcases List.mem_cons.mp hd with rfl | hd
      · exact hq p List.mem_cons_self d h.1
      · exact ih h.2 (fun p hp => hq p (List.mem_cons_of_mem _ hp)) d hd

theorem isShape_token {hi : Nat} (h : isShape ps s = true)
    (hq : ∀ p ∈ ps, ∀ c, p c = true → q c = true) (h₀ : ps ≠ []) (hhi : ps.length ≤ hi + 1) : isToken q q 0 hi s = true := by
  have hall := isShape_all h hq
  have hlen := isShape_length h
  cases s with
  | nil => exact absurd (List.length_eq_zero_iff.mp hlen.symm) h₀
  | cons c cs =>
    refine isToken_iff.mpr ⟨c, cs, rfl, hall c List.mem_cons_self, fun d hd => hall d (List.mem_cons_of_mem _ hd), Nat.zero_le _, ?_⟩
    rw [List.length_cons] at hlen
    omega

/-- The classes a picture stands for: `h` a hexadecimal digit, `9` a digit, and itself otherwise. -/
def shapeOf (picture : String) : List (Nat → Bool) :=
  picture.toList.map fun c => if c = 'h' then isHexLower else if c = '9' then isDigit else fun d => d == c.toNat

def isUuid : List Nat → Bool := isShape (shapeOf "hhhhhhhh-hhhh-hhhh-hhhh-hhhhhhhhhhhh")

def isTimestamp : List Nat → Bool := isShape (shapeOf "9999-99-99T99:99:99.999Z")

theorem isUuid_ne_nil (h : isUuid s = true) : s ≠ [] := by
  rintro rfl
  cases h

end NawaraCore
