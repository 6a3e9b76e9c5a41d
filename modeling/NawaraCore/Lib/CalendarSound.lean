import NawaraCore.Lib.Calendar

/-!
# Months and days

Every day falls in exactly one month, so adding months to a day moves its month by
exactly that number, whatever the last days of the months do to the day.
-/

namespace NawaraCore.Calendar

/-! ## Years of 400 -/

def yearDays (y : Int) : Int := 365 * y + y / 4 - y / 100 + y / 400

theorem monthStart_eq (y m : Int) (h0 : 0 ≤ m) (h12 : m < 12) :
    monthStart (12 * y + m + 3) = yearDays y + (153 * m + 2) / 5 - 719468 := by
  simp only [monthStart, yearDays]
  have hy : (12 * y + m + 3 - 3) / 12 = y := by omega
  have hm : (12 * y + m + 3 - 3) % 12 = m := by omega
  rw [hy, hm]

structure YearParts (y e c q r : Int) : Prop where
  eq : y = 400 * e + 100 * c + 4 * q + r
  century : 0 ≤ c ∧ c ≤ 3
  quad : 0 ≤ q ∧ q ≤ 24
  year : 0 ≤ r ∧ r ≤ 3

theorem yearParts (y : Int) : YearParts y (y / 400) (y % 400 / 100) (y % 100 / 4) (y % 4) := by
  constructor <;> omega

section
variable {y e c q r doy : Int}

theorem YearParts.days (h : YearParts y e c q r) : yearDays y = 146097 * e + 36524 * c + 1461 * q + 365 * r := by
  obtain ⟨rfl, hc, hq, hr⟩ := h
  unfold yearDays
  omega

def DayOfYear (c q r doy : Int) : Prop := 0 ≤ doy ∧ (doy < 365 ∨ (doy = 365 ∧ r = 3 ∧ (q < 24 ∨ c = 3)))

theorem YearParts.length (h : YearParts y e c q r) (h0 : 0 ≤ doy) (hd : doy < yearDays (y + 1) - yearDays y) :
    DayOfYear c q r doy := by
  obtain ⟨rfl, hc, hq, hr⟩ := h
  unfold yearDays at hd
  unfold DayOfYear
  omega

theorem YearParts.yearOfEra (h : YearParts y e c q r) (hd : DayOfYear c q r doy) :
    let doe := 36524 * c + 1461 * q + 365 * r + doy
    0 ≤ doe ∧ doe < 146097 ∧
      (doe - doe / 1460 + doe / 36524 - doe / 146096) / 365 = 100 * c + 4 * q + r := by
  obtain ⟨-, hc, hq, hr⟩ := h
  obtain ⟨h0, hd⟩ := hd
  intro doe
  have hdoe : doe = 36524 * c + 1461 * q + 365 * r + doy := rfl
  clear_value doe
  -- only the leap day of the last year reaches the next multiple of a century
  have hlast : 1461 * q + 365 * r + doy < 36524 ∨ (c = 3 ∧ 1461 * q + 365 * r + doy = 36524) := by omega
  have hcentury : doe / 36524 - doe / 146096 = c := by omega
  have hquad : doe / 1460 = 25 * c + q + (24 * c + q + 365 * r + doy) / 1460 := by omega
  exact ⟨by omega, by omega, by omega⟩

theorem YearParts.monthIndex (h : YearParts y e c q r) (hd : DayOfYear c q r doy) :
    monthIndex (yearDays y + doy - 719468) = 12 * y + (5 * doy + 2) / 153 + 3 := by
  have hleap : (100 * c + 4 * q + r) / 4 - (100 * c + 4 * q + r) / 100 = 24 * c + q := by
    obtain ⟨-, hc, hq, hr⟩ := h
    omega
  obtain ⟨h0, h1, hyoe⟩ := h.yearOfEra hd
  have hdays := h.days
  obtain ⟨rfl, hc, hq, hr⟩ := h
  have hz : yearDays (400 * e + 100 * c + 4 * q + r) + doy - 719468 + 719468 =
      146097 * e + (36524 * c + 1461 * q + 365 * r + doy) := by omega
  have hera : (146097 * e + (36524 * c + 1461 * q + 365 * r + doy)) / 146097 = e := by omega
  have hdoe : (146097 * e + (36524 * c + 1461 * q + 365 * r + doy)) % 146097 =
      36524 * c + 1461 * q + 365 * r + doy := by omega
  unfold Calendar.monthIndex
  simp only [hz, hera, hdoe, hyoe]
  have hdoy : 36524 * c + 1461 * q + 365 * r + doy -
      (365 * (100 * c + 4 * q + r) + (100 * c + 4 * q + r) / 4 - (100 * c + 4 * q + r) / 100) = doy := by omega
  rw [hdoy]
  omega

/-! ## Months -/

theorem monthOfYear {m doy : Int} (hlo : (153 * m + 2) / 5 ≤ doy)
    (hhi : doy < (153 * (m + 1) + 2) / 5) : (5 * doy + 2) / 153 = m := by omega

theorem monthIndex_eq {k d : Int} (hlo : monthStart k ≤ d) (hhi : d < monthStart (k + 1)) : monthIndex d = k := by
  obtain ⟨y, m, h0, h12, rfl⟩ : ∃ y m : Int, 0 ≤ m ∧ m < 12 ∧ k = 12 * y + m + 3 :=
    ⟨(k - 3) / 12, (k - 3) % 12, by omega, by omega, by omega⟩
  have hy := yearParts y
  rw [monthStart_eq y m h0 h12] at hlo
  obtain ⟨doy, rfl⟩ : ∃ doy, d = yearDays y + doy - 719468 := ⟨d + 719468 - yearDays y, by omega⟩
  have hlen : yearDays (y + 1) - yearDays y = 365 ∨ yearDays (y + 1) - yearDays y = 366 := by
    unfold yearDays
    omega
  by_cases hm : m = 11
  · subst hm
    have hnext : (12 * y + 11 + 3 + 1 : Int) = 12 * (y + 1) + 0 + 3 := by omega
    rw [hnext, monthStart_eq (y + 1) 0 (by omega) (by omega)] at hhi
    rw [hy.monthIndex (hy.length (by omega) (by omega)), monthOfYear (m := 11) (by omega) (by omega)]
  · have hnext : (12 * y + m + 3 + 1 : Int) = 12 * y + (m + 1) + 3 := by omega
    rw [hnext, monthStart_eq y (m + 1) (by omega) (by omega)] at hhi
    rw [hy.monthIndex (hy.length (by omega) (by omega)), monthOfYear (m := m) (by omega) (by omega)]

theorem monthStart_lt (k : Int) : monthStart k < monthStart (k + 1) := by
  obtain ⟨y, m, h0, h12, rfl⟩ : ∃ y m : Int, 0 ≤ m ∧ m < 12 ∧ k = 12 * y + m + 3 :=
    ⟨(k - 3) / 12, (k - 3) % 12, by omega, by omega, by omega⟩
  by_cases hm : m = 11
  · subst hm
    have hnext : (12 * y + 11 + 3 + 1 : Int) = 12 * (y + 1) + 0 + 3 := by omega
    rw [hnext, monthStart_eq (y + 1) 0 (by omega) (by omega), monthStart_eq y 11 h0 h12]
    unfold yearDays
    omega
  · have hnext : (12 * y + m + 3 + 1 : Int) = 12 * y + (m + 1) + 3 := by omega
    rw [hnext, monthStart_eq y (m + 1) (by omega) (by omega), monthStart_eq y m h0 h12]
    omega

theorem exists_month (d : Int) : ∃ k, monthStart k ≤ d ∧ d < monthStart (k + 1) := by
  induction d using Int.induction_on with
  | zero => exact ⟨23641, by decide⟩
  | succ d ih =>
    obtain ⟨k, hlo, hhi⟩ := ih
    by_cases hn : (d : Int) + 1 < monthStart (k + 1)
    · exact ⟨k, by omega, hn⟩
    · have := monthStart_lt (k + 1)
      exact ⟨k + 1, by omega, by omega⟩
  | pred d ih =>
    obtain ⟨k, hlo, hhi⟩ := ih
    by_cases hn : monthStart k ≤ -(d : Int) - 1
    · exact ⟨k, hn, by omega⟩
    · have hprev := monthStart_lt (k - 1)
      rw [Int.sub_add_cancel] at hprev
      exact ⟨k - 1, by omega, by rw [Int.sub_add_cancel]; omega⟩

theorem monthStart_le (d : Int) : monthStart (monthIndex d) ≤ d ∧ d < monthStart (monthIndex d + 1) := by
  obtain ⟨k, hlo, hhi⟩ := exists_month d
  rw [monthIndex_eq hlo hhi]
  exact ⟨hlo, hhi⟩

theorem monthStart_mono {j k : Int} (h : j ≤ k) : monthStart j ≤ monthStart k := by
  induction k, h using Int.leInduction with
  | base => exact le_rfl
  | succ k _ ih => exact ih.trans (monthStart_lt k).le

theorem monthIndex_mono {d d' : Int} (h : d ≤ d') : monthIndex d ≤ monthIndex d' := by
  by_contra hlt
  have hmono := monthStart_mono (j := monthIndex d' + 1) (k := monthIndex d) (by omega)
  have hd := monthStart_le d
  have hd' := monthStart_le d'
  omega

theorem monthIndex_addMonths (d n : Int) : monthIndex (addMonths d n) = monthIndex d + n := by
  have hd := monthStart_le d
  have hlt := monthStart_lt (monthIndex d + n)
  apply monthIndex_eq
  · simp only [addMonths, monthLength]
    omega
  · simp only [addMonths, monthLength]
    omega

theorem addMonths_zero (d : Int) : addMonths d 0 = d := by
  have hd := monthStart_le d
  simp only [addMonths, monthLength, Int.add_zero]
  omega

end

end NawaraCore.Calendar
