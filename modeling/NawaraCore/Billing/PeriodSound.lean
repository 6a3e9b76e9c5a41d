import NawaraCore.Billing.Subscription
import NawaraCore.Lib.CalendarSound

/-!
# Period ends

The end of a month or year period is counted from the anchor, so on the anchor's cadence
it is the next occurrence, and clamping one occurrence leaves the others alone.
-/

namespace NawaraCore.Subscriptions

open Calendar

section
variable (t : Int) {a b m n : Int}

theorem plusMonths_day (n : Int) : plusMonths t n / DAY_MS = addMonths (t / DAY_MS) n := by
  have hpos : (0 : Int) < DAY_MS := by decide
  unfold plusMonths
  rw [Int.add_comm, Int.add_mul_ediv_right _ _ hpos.ne', Int.ediv_eq_zero_of_lt (Int.emod_nonneg t hpos.ne')
    (Int.emod_lt_of_pos t hpos), Int.zero_add]

theorem monthOf_plusMonths (n : Int) : monthOf (plusMonths t n) = monthOf t + n := by
  unfold monthOf
  rw [plusMonths_day, monthIndex_addMonths]

@[simp] theorem plusMonths_zero : plusMonths t 0 = t := by
  unfold plusMonths
  rw [addMonths_zero]
  exact Int.ediv_mul_add_emod t DAY_MS

theorem lt_of_monthOf (h : monthOf a < monthOf b) : a < b := by
  by_contra hle
  have hday : b / DAY_MS ≤ a / DAY_MS := Int.ediv_le_ediv (by decide) (not_lt.mp hle)
  exact absurd (monthIndex_mono hday) (not_le.mpr h)

end

/-! ## Month, day and time -/

def dayOfMonth (t : Int) : Int := t / DAY_MS - monthStart (monthOf t)

def timeOfDay (t : Int) : Int := t % DAY_MS

def NotLaterInMonth (a b : Int) : Prop :=
  dayOfMonth a < dayOfMonth b ∨ (dayOfMonth a = dayOfMonth b ∧ timeOfDay a ≤ timeOfDay b)

section
variable {a b : Int}

theorem instant_eq (t : Int) : t = (monthStart (monthOf t) + dayOfMonth t) * DAY_MS + timeOfDay t := by
  have h := Int.ediv_mul_add_emod t DAY_MS
  unfold dayOfMonth timeOfDay
  rw [add_sub_cancel]
  exact h.symm

theorem timeOfDay_bounds (t : Int) : 0 ≤ timeOfDay t ∧ timeOfDay t < DAY_MS :=
  ⟨Int.emod_nonneg t (by decide), Int.emod_lt_of_pos t (by decide)⟩

theorem dayOfMonth_bounds (t : Int) : 0 ≤ dayOfMonth t ∧ dayOfMonth t < monthLength (monthOf t) := by
  have h := monthStart_le (t / DAY_MS)
  unfold dayOfMonth monthLength monthOf
  omega

theorem notLater_of_le (h : a ≤ b) (hm : monthOf a = monthOf b) : NotLaterInMonth a b := by
  have hday : a / DAY_MS ≤ b / DAY_MS := Int.ediv_le_ediv (by decide) h
  have ha := Int.ediv_mul_add_emod a DAY_MS
  have hb := Int.ediv_mul_add_emod b DAY_MS
  unfold NotLaterInMonth dayOfMonth timeOfDay
  rw [hm]
  by_cases hd : a / DAY_MS = b / DAY_MS
  · rw [hd] at ha ⊢
    omega
  · omega

theorem le_of_notLater (hm : monthOf a = monthOf b) (h : NotLaterInMonth a b) : a ≤ b := by
  have hta := timeOfDay_bounds a
  have htb := timeOfDay_bounds b
  rw [instant_eq a, instant_eq b, hm]
  rcases h with hd | ⟨hd, ht⟩
  · have hday : (monthStart (monthOf b) + dayOfMonth a + 1) * DAY_MS ≤ (monthStart (monthOf b) + dayOfMonth b) * DAY_MS :=
      Int.mul_le_mul_of_nonneg_right (by omega) (by decide)
    rw [Int.add_mul _ 1, Int.one_mul] at hday
    omega
  · rw [hd]
    omega

theorem NotLaterInMonth.refl (t : Int) : NotLaterInMonth t t := .inr ⟨rfl, le_rfl⟩

theorem month_cases (h : a ≤ b) : monthOf a < monthOf b ∨ (monthOf a = monthOf b ∧ NotLaterInMonth a b) := by
  have hle : monthOf a ≤ monthOf b := monthIndex_mono (Int.ediv_le_ediv (by decide) h)
  rcases lt_or_eq_of_le hle with hlt | heq
  · exact .inl hlt
  · exact .inr ⟨heq, notLater_of_le h heq⟩

theorem dayOfMonth_plusMonths (t n : Int) :
    dayOfMonth (plusMonths t n) = min (dayOfMonth t) (monthLength (monthOf t + n) - 1) := by
  unfold dayOfMonth
  rw [plusMonths_day, monthOf_plusMonths]
  simp only [addMonths, monthOf]
  omega

@[simp] theorem timeOfDay_plusMonths (t n : Int) : timeOfDay (plusMonths t n) = timeOfDay t := by
  unfold timeOfDay plusMonths
  rw [Int.add_comm, Int.add_mul_emod_self_right, Int.emod_emod]

end

def intervalMonths (unit : IntervalUnit) (count : Nat) : Int :=
  match unit with
  | .year => count * 12
  | _ => count * 1

variable {unit : IntervalUnit}

theorem calendar_period_end (hc : unit.calendar) (start anchor : Int) (count : Nat) :
    billing_subscription_period_end start (some anchor) unit count =
      some (plusMonths anchor (monthOf start - monthOf anchor + intervalMonths unit count)) := by
  cases unit with
  | month => rfl
  | year => rfl
  | day => cases hc
  | week => cases hc

theorem period_end_on_cadence (hc : unit.calendar) (anchor : Int) (count : Nat) (n : Int) :
    billing_subscription_period_end (plusMonths anchor (n * intervalMonths unit count)) (some anchor) unit count =
      some (plusMonths anchor ((n + 1) * intervalMonths unit count)) := by
  rw [calendar_period_end hc, monthOf_plusMonths]
  congr 2
  rw [Int.add_mul]
  omega

end NawaraCore.Subscriptions
