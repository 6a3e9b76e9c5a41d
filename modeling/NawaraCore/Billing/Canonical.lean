import NawaraCore.Kit.SafeSerialize
import NawaraCore.Lib.CanonicalJson

/-!
# The canonical form of a request

What a request hash is taken of: keys sorted at every depth, a bigint as its decimal text, a
Date as its instant, undefined as null.
-/

namespace NawaraCore.Canonical

open Audit (Text)
open SafeSerialize (toISOString)

/-- A value of a request. A Date is a valid one: of another there is no text. -/
inductive Value
  | undefined
  | null
  | boolean (b : Bool)
  | number (n : JsNumber)
  | bigint (n : Int)
  | string (s : Text)
  | date (time : Int)
  | array (items : List Value)
  | object (entries : List (Text × Value))

def indexValue (key : Text) : Nat := key.foldl (fun n c => 10 * n + (c - 48)) 0

def isIndex (key : Text) : Bool :=
  key.all isDigit && (key = [48] || key.head?.any (49 ≤ ·)) && decide (indexValue key < 4294967295)

/-- The order of an object's own keys: indices in number order, then the others as they were set. -/
def fromEntries (entries : Members) : Members :=
  (entries.filter fun e => isIndex e.1).mergeSort (fun a b => decide (indexValue a.1 ≤ indexValue b.1)) ++ entries.filter fun e => !isIndex e.1

mutual
def normalise : Value → Json
  | .undefined => .null
  | .bigint n => .str (codes (toString n))
  | .date time => .str (toISOString time)
  | .array items => .arr (normaliseItems items)
  | .object entries => .obj (fromEntries (byKey (normaliseEntries entries)))
  | .null => .null
  | .boolean b => .bool b
  | .number n => .num n
  | .string s => .str s

def normaliseItems : List Value → List Json
  | [] => []
  | v :: vs => normalise v :: normaliseItems vs

def normaliseEntries : List (Text × Value) → Members
  | [] => []
  | (k, v) :: es => (k, normalise v) :: normaliseEntries es
end

def canonicalJson (value : Value) : Text := (normalise value).stringify

end NawaraCore.Canonical
