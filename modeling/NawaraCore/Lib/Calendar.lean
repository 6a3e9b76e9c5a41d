import Mathlib.Algebra.Order.Ring.Int

/-!
# The Gregorian calendar, counted in months

Days are counted from 1970-01-01 and months by `year * 12 + month`. Years run from
March, so that the leap day ends a year. Adding months keeps the day of the month,
or takes the last day of a month that does not have it.
-/

namespace NawaraCore.Calendar

def monthStart (k : Int) : Int :=
  let y := (k - 3) / 12
  let m := (k - 3) % 12
  365 * y + y / 4 - y / 100 + y / 400 + (153 * m + 2) / 5 - 719468

def monthLength (k : Int) : Int := monthStart (k + 1) - monthStart k

def monthIndex (d : Int) : Int :=
  let z := d + 719468
  let era := z / 146097
  let doe := z % 146097
  let yoe := (doe - doe / 1460 + doe / 36524 - doe / 146096) / 365
  let doy := doe - (365 * yoe + yoe / 4 - yoe / 100)
  (era * 400 + yoe) * 12 + (5 * doy + 2) / 153 + 3

def addMonths (d n : Int) : Int :=
  let k := monthIndex d
  monthStart (k + n) + min (d - monthStart k) (monthLength (k + n) - 1)

end NawaraCore.Calendar
