import NawaraCore.Billing.PaymentEvent

/-!
# Invoice totals

Amounts are integers of minor units up to 2^53 - 1. Totals are computed from the lines, and
every product and every sum is checked against that bound.
-/

namespace NawaraCore.Totals

open PaymentRequests (JsonAmount isSafeInteger)

/-! ## Money -/

def MAX_MINOR_UNITS : Int := 9007199254740991

/-- An amount from code, or a value from JSON. -/
inductive Amount
  | bigint (n : Int)
  | json (value : JsonAmount)

def assertInRange (v : Int) (field : String) : Except String Int :=
  if v < 0 ∨ MAX_MINOR_UNITS < v then .error (field ++ " must be between 0 and " ++ toString MAX_MINOR_UNITS) else .ok v

def toMinorUnits (value : Amount) (field : String) : Except String Int := match value with
  | .bigint n => assertInRange n field
  | .json (.integer n) =>
    if isSafeInteger n then assertInRange n field else .error (field ++ " must be an integer number of minor units")
  | .json .other => .error (field ++ " must be an integer number of minor units")

def assertPositive (v : Int) (field : String) : Except String Int :=
  if v ≤ 0 then .error (field ++ " must be greater than zero") else .ok v

def mulMinor (a b : Int) (field : String) : Except String Int :=
  if MAX_MINOR_UNITS < a * b then .error (field ++ " exceeds the maximum amount") else .ok (a * b)

def addMinor (a b : Int) (field : String) : Except String Int :=
  if MAX_MINOR_UNITS < a + b then .error (field ++ " exceeds the maximum amount") else .ok (a + b)

/-- `Number(v)`: the nearest number of 53 significant bits, and the even one of two. -/
def toNumber (v : Nat) : Nat :=
  let e := v.log2 - 52
  let q := v / 2 ^ e
  let r := v % 2 ^ e
  (if 2 * r < 2 ^ e ∨ (2 * r = 2 ^ e ∧ q % 2 = 0) then q else q + 1) * 2 ^ e

def toJsonAmount (v : Int) : Except String JsonAmount :=
  if v < 0 ∨ MAX_MINOR_UNITS < v then .error "amount cannot be represented exactly as a JSON number"
  else .ok (.integer (toNumber v.toNat))

/-! ## Totals -/

def MAX_LINES : Nat := 100

def MAX_QUANTITY : Int := 2147483647

structure LineInput where
  quantity : JsonAmount
  unitAmount : Int

structure ComputedLine where
  lineNumber : Nat
  quantity : Int
  unitAmount : Int
  lineTotal : Int
  taxAmount : Int

structure InvoiceTotals where
  lines : List ComputedLine
  subtotal : Int
  taxTotal : Int
  total : Int

def quantityOf (l : LineInput) (line : String) : Except String Int := match l.quantity with
  | .integer q =>
    if q < 1 ∨ MAX_QUANTITY < q then .error (line ++ ": quantity must be an integer from 1 to " ++ toString MAX_QUANTITY) else .ok q
  | .other => .error (line ++ ": quantity must be an integer from 1 to " ++ toString MAX_QUANTITY)

def computeLine (i : Nat) (l : LineInput) : Except String ComputedLine := do
  let line := "line " ++ toString (i + 1)
  let quantity ← quantityOf l line
  let unitAmount ← toMinorUnits (.bigint l.unitAmount) (line ++ " unit amount")
  let unitAmount ← assertPositive unitAmount (line ++ " unit amount")
  let lineTotal ← mulMinor quantity unitAmount (line ++ " total")
  .ok ⟨i + 1, quantity, unitAmount, lineTotal, 0⟩

/-- The lines from `i` on, after those that sum to `subtotal`. -/
def computeLines : Nat → Int → List LineInput → Except String (List ComputedLine × Int)
  | _, subtotal, [] => .ok ([], subtotal)
  | i, subtotal, l :: ls => do
    let line ← computeLine i l
    let subtotal ← addMinor subtotal line.lineTotal "subtotal"
    let (lines, subtotal) ← computeLines (i + 1) subtotal ls
    .ok (line :: lines, subtotal)

def computeTotals (lines : List LineInput) : Except String InvoiceTotals :=
  if lines.length < 1 ∨ MAX_LINES < lines.length then .error ("an invoice has between 1 and " ++ toString MAX_LINES ++ " lines")
  else do
    let (computed, subtotal) ← computeLines 0 0 lines
    let taxTotal := 0
    let total ← addMinor subtotal taxTotal "total"
    .ok ⟨computed, subtotal, taxTotal, total⟩

end NawaraCore.Totals
