import NawaraCore.Lib.CanonicalJson

/-!
# Reading JSON

`JSON.parse`: one value and nothing after it. What a number's literal stands for is a parameter.
-/

namespace NawaraCore.Json

def hexValue (c : Nat) : Option Nat :=
  if 48 ≤ c ∧ c ≤ 57 then some (c - 48) else if 97 ≤ c ∧ c ≤ 102 then some (c - 87) else if 65 ≤ c ∧ c ≤ 70 then some (c - 55) else none

def readHex : Nat → Nat → List Nat → Option (Nat × List Nat)
  | 0, acc, text => some (acc, text)
  | _ + 1, _, [] => none
  | n + 1, acc, c :: text => match hexValue c with
    | none => none
    | some d => readHex n (16 * acc + d) text

def unescape (c : Nat) : Option Nat :=
  if c = 34 ∨ c = 92 ∨ c = 47 then some c
  else if c = 98 then some 8
  else if c = 102 then some 12
  else if c = 110 then some 10
  else if c = 114 then some 13
  else if c = 116 then some 9
  else none

def readEscape : List Nat → Option (Nat × List Nat)
  | [] => none
  | c :: text => if c = 117 then readHex 4 0 text else (unescape c).map fun u => (u, text)

def readUnit : List Nat → Option (Option Nat × List Nat)
  | [] => none
  | c :: text =>
    if c = 34 then some (none, text)
    else if c = 92 then (readEscape text).map fun (u, rest) => (some u, rest)
    else if c < 32 then none
    else some (some c, text)

def readUnits : Nat → List Nat → Option (List Nat × List Nat)
  | 0, _ => none
  | fuel + 1, text => match readUnit text with
    | none => none
    | some (none, rest) => some ([], rest)
    | some (some u, rest) => (readUnits fuel rest).map fun (s, rest) => (u :: s, rest)

def readString (text : List Nat) : Option (List Nat × List Nat) := readUnits (text.length + 1) text

def literalChar (c : Nat) : Bool := isDigit c || oneOf "+-.eE" c

def isExponent : List Nat → Bool
  | [] => true
  | c :: text =>
    let digits := match text with
      | 43 :: text | 45 :: text => text
      | text => text
    (c = 101 || c = 69) && digits ≠ [] && digits.all isDigit

def isFraction : List Nat → Bool
  | 46 :: text => text.takeWhile isDigit ≠ [] && isExponent (text.dropWhile isDigit)
  | text => isExponent text

/-- An optional sign, an integer without a needless zero, a fraction and an exponent. -/
def isLiteral (text : List Nat) : Bool :=
  let digits := match text with
    | 45 :: text => text
    | text => text
  let whole := digits.takeWhile isDigit
  whole ≠ [] && (whole.head? ≠ some 48 || whole.length = 1) && isFraction (digits.dropWhile isDigit)

/-- The numbers there are, safe integers among them, and the one a literal stands for: a number's own text stands for it. -/
structure Numerals where
  valid : JsNumber → Prop
  safe : ∀ n : Nat, n ≤ 9007199254740991 → valid (.int n)
  value : List Nat → JsNumber
  literal : ∀ n, valid n → JsNumber.finite n = true → isLiteral (numberText n) = true
  exact : ∀ n, valid n → JsNumber.finite n = true → value (numberText n) = n

/-! ## Values -/

def isSpace (c : Nat) : Bool := c = 32 || c = 9 || c = 10 || c = 13

def skipSpace : List Nat → List Nat := List.dropWhile isSpace

def distinct : Members → Members
  | [] => []
  | (k, j) :: ms => (k, ((distinct ms).lookup k).getD j) :: (distinct ms).filter fun m => m.1 ≠ k

def readKey (text : List Nat) : Option (List Nat × List Nat) := match skipSpace text with
  | [] => none
  | c :: rest =>
    if c = 34 then match readString rest with
      | none => none
      | some (k, rest) => match skipSpace rest with
        | [] => none
        | c :: rest => if c = 58 then some (k, rest) else none
    else none

section
variable (N : Numerals)

def readNumber (text : List Nat) : Option (Json × List Nat) :=
  let literal := text.takeWhile literalChar
  if isLiteral literal then some (.num (N.value literal), text.dropWhile literalChar) else none

def readWord (word : String) (j : Json) (text : List Nat) : Option (Json × List Nat) :=
  if codes word <+: text then some (j, text.drop (codes word).length) else none

mutual
def readValue : Nat → List Nat → Option (Json × List Nat)
  | 0, _ => none
  | fuel + 1, text => match skipSpace text with
    | [] => none
    | c :: rest =>
      if c = 34 then (readString rest).map fun (s, rest) => (.str s, rest)
      else if c = 91 then
        if (skipSpace rest).head? = some 93 then some (.arr [], (skipSpace rest).tail)
        else (readItems fuel rest).map fun (items, rest) => (.arr items, rest)
      else if c = 123 then
        if (skipSpace rest).head? = some 125 then some (.obj [], (skipSpace rest).tail)
        else (readMembers fuel rest).map fun (members, rest) => (.obj (distinct members), rest)
      else if c = 110 then readWord "null" .null (c :: rest)
      else if c = 116 then readWord "true" (.bool true) (c :: rest)
      else if c = 102 then readWord "false" (.bool false) (c :: rest)
      else readNumber N (c :: rest)

def readItems : Nat → List Nat → Option (List Json × List Nat)
  | 0, _ => none
  | fuel + 1, text => match readValue fuel text with
    | none => none
    | some (j, rest) => match skipSpace rest with
      | [] => none
      | c :: rest =>
        if c = 44 then (readItems fuel rest).map fun (js, rest) => (j :: js, rest)
        else if c = 93 then some ([j], rest)
        else none

def readMembers : Nat → List Nat → Option (Members × List Nat)
  | 0, _ => none
  | fuel + 1, text => match readKey text with
    | none => none
    | some (k, rest) => match readValue fuel rest with
      | none => none
      | some (j, rest) => match skipSpace rest with
        | [] => none
        | c :: rest =>
          if c = 44 then (readMembers fuel rest).map fun (ms, rest) => ((k, j) :: ms, rest)
          else if c = 125 then some ([(k, j)], rest)
          else none
end

/-- `JSON.parse`; every value takes a character at least. -/
def parse (text : List Nat) : Option Json :=
  match readValue N (text.length + 1) text with
  | none => none
  | some (j, rest) => if skipSpace rest = [] then some j else none

end

end NawaraCore.Json
