import Mathlib.Computability.RegularExpressions
import Mathlib.Data.List.MinMax
import Mathlib.Data.Prod.Lex
import NawaraCore.Lib.Json

/-!
# Release versions

The grammar of a version in the service and in the database, the columns that the database
derives from it, and SemVer 2.0 precedence. The `semver` package is a parameter. A text of the
service is its UTF-16 code units, a text of the database its code points.
-/

namespace NawaraCore.Versions

abbrev Text := List Nat

abbrev Pattern := RegularExpression Nat

def lit (c : Char) : Pattern := .char c.toNat

def range (a b : Char) : List Nat := (List.range (b.toNat + 1 - a.toNat)).map (a.toNat + ·)

def oneOfChars (cs : List Nat) : Pattern := (cs.map .char).foldr (· + ·) 0

def upTo (p : Pattern) : Nat → Pattern
  | 0 => 1
  | n + 1 => 1 + p * upTo p n

def digits : List Nat := range '0' '9'

def nonDigits : List Nat := range 'A' 'Z' ++ range 'a' 'z' ++ [45]

def identifierChars : List Nat := digits ++ nonDigits

def numericIdentifier : Pattern := lit '0' + oneOfChars (range '1' '9') * upTo (oneOfChars digits) 14

def alphanumericIdentifier : Pattern := .star (oneOfChars digits) * (oneOfChars nonDigits * .star (oneOfChars identifierChars))

def prereleaseIdentifier : Pattern := numericIdentifier + alphanumericIdentifier

def CANONICAL_VERSION : Pattern :=
  numericIdentifier * (lit '.' * (numericIdentifier * (lit '.' * (numericIdentifier *
    (1 + lit '-' * (prereleaseIdentifier * .star (lit '.' * prereleaseIdentifier)))))))

def SEMVER_PATTERN : Pattern :=
  numericIdentifier * (lit '.' * (numericIdentifier * (lit '.' * (numericIdentifier *
    (1 + lit '-' * (prereleaseIdentifier * .star (lit '.' * prereleaseIdentifier)))))))

def MAX_VERSION_LENGTH : Nat := 128

structure Semver where
  valid : Text → Option Text
  prerelease : Text → Option (List Text)
  compare : Text → Text → Int

section
variable (S : Semver)

def isCanonicalVersion (value : Text) : Bool :=
  value.length ≤ MAX_VERSION_LENGTH && CANONICAL_VERSION.rmatch value && S.valid value = some value

def isStableVersion (value : Text) : Bool := isCanonicalVersion S value && (S.prerelease value).isNone

def compareVersions (a b : Text) : Option Int :=
  if ¬ isCanonicalVersion S a ∨ ¬ isCanonicalVersion S b then none else some (S.compare a b)

end

/-- What the database receives of a text; half of a pair alone is the replacement character. -/
def received : Text → List Nat
  | [] => []
  | [c] => [if Json.isHigh c || Json.isLow c then 65533 else c]
  | c :: d :: ds =>
    if Json.isHigh c && Json.isLow d then (65536 + (c - 55296) * 1024 + (d - 56320)) :: received ds
    else (if Json.isHigh c || Json.isLow c then 65533 else c) :: received (d :: ds)

def releaseSemverValid (v : List Nat) : Bool := v.length ≤ 128 && SEMVER_PATTERN.rmatch v

def toBigint (s : List Nat) : Nat := Nat.ofDigitChars 10 (s.map Char.ofNat) 0

/-- `^([0-9]+)`, and what follows. -/
def leadingNumber (s : List Nat) : Option (List Nat × List Nat) :=
  if s.takeWhile isDigit = [] then none else some (s.takeWhile isDigit, s.dropWhile isDigit)

/-- `^([0-9]+)` and this character after it, and what follows. -/
def numberBefore (c : Char) (s : List Nat) : Option (List Nat × List Nat) := match leadingNumber s with
  | some (number, d :: rest) => if d = c.toNat then some (number, rest) else none
  | _ => none

structure Columns where
  major : Option Nat
  minor : Option Nat
  patch : Option Nat
  prerelease : Option (List Nat)

def columns (version : List Nat) : Columns where
  major := (numberBefore '.' version).map fun m => toBigint m.1
  minor := (numberBefore '.' version).bind fun m => (numberBefore '.' m.2).map fun m => toBigint m.1
  patch := (numberBefore '.' version).bind fun m => (numberBefore '.' m.2).bind fun m => (leadingNumber m.2).map fun m => toBigint m.1
  prerelease := (numberBefore '.' version).bind fun m => (numberBefore '.' m.2).bind fun m => (numberBefore '-' m.2).bind fun m =>
    if m.2 = [] then none else some m.2

def Columns.core (c : Columns) : Lex (Nat × Lex (Nat × Nat)) := toLex (c.major.getD 0, toLex (c.minor.getD 0, c.patch.getD 0))

/-- `ORDER BY major DESC, minor DESC, patch DESC LIMIT 1` over the versions without a pre-release. -/
def latest (versions : List (List Nat)) : Option (List Nat) :=
  (versions.filter fun v => (columns v).prerelease.isNone).argmax fun v => (columns v).core

/-! ## SemVer 2.0 -/

inductive Identifier
  | numeric (n : Nat)
  | alphanumeric (s : Text)

structure SemVer where
  major : Nat
  minor : Nat
  patch : Nat
  prerelease : List Identifier

def numberText (n : Nat) : Text := codes (Nat.repr n)

def Identifier.print : Identifier → Text
  | .numeric n => numberText n
  | .alphanumeric s => s

def printIdentifiers (mark : Nat) : List Identifier → Text
  | [] => []
  | i :: is => mark :: (i.print ++ printIdentifiers 46 is)

def SemVer.print (v : SemVer) : Text :=
  numberText v.major ++ 46 :: (numberText v.minor ++ 46 :: (numberText v.patch ++ printIdentifiers 45 v.prerelease))

def readIdentifier (s : Text) : Identifier := if s.all isDigit then .numeric (toBigint s) else .alphanumeric s

def readVersion (s : Text) : Option SemVer :=
  (numberBefore '.' s).bind fun a => (numberBefore '.' a.2).bind fun b => (leadingNumber b.2).map fun c =>
    ⟨toBigint a.1, toBigint b.1, toBigint c.1, if c.2 = [] then [] else (c.2.tail.splitOn 46).map readIdentifier⟩

def isAlphanumeric (s : Text) : Prop := (∀ c ∈ s, c ∈ identifierChars) ∧ ∃ c ∈ s, c ∈ nonDigits

def Identifier.Below (bound : Nat) : Identifier → Prop
  | .numeric n => n < bound
  | .alphanumeric s => isAlphanumeric s

structure SemVer.Below (bound : Nat) (v : SemVer) : Prop where
  major : v.major < bound
  minor : v.minor < bound
  patch : v.patch < bound
  prerelease : ∀ i ∈ v.prerelease, i.Below bound

def compareIdentifiers : Identifier → Identifier → Ordering
  | .numeric m, .numeric n => compare m n
  | .numeric _, .alphanumeric _ => .lt
  | .alphanumeric _, .numeric _ => .gt
  | .alphanumeric s, .alphanumeric t => compare s t

/-- A pre-release is below its release; then the first different identifier decides, or the longer list. -/
def comparePrerelease : List Identifier → List Identifier → Ordering :=
  compareLex (compareOn List.isEmpty) (List.compareLex compareIdentifiers)

def precedence : SemVer → SemVer → Ordering :=
  compareLex (compareOn SemVer.major) (compareLex (compareOn SemVer.minor) (compareLex (compareOn SemVer.patch) fun v w => comparePrerelease v.prerelease w.prerelease))

def Ordering.sign : Ordering → Int
  | .lt => -1
  | .eq => 0
  | .gt => 1

/-- The package reads versions whose numbers are safe integers, of at most 256 characters, as SemVer 2.0 says. -/
structure Semver.Standard (S : Semver) : Prop where
  valid : ∀ v : SemVer, v.Below 9007199254740992 → v.print.length ≤ 256 → S.valid v.print = some v.print
  prerelease : ∀ v : SemVer, v.Below 9007199254740992 → v.print.length ≤ 256 → (S.prerelease v.print = none ↔ v.prerelease = [])
  compare : ∀ v w : SemVer, v.Below 9007199254740992 → w.Below 9007199254740992 → v.print.length ≤ 256 → w.print.length ≤ 256 →
    S.compare v.print w.print = Ordering.sign (precedence v w)

end NawaraCore.Versions
