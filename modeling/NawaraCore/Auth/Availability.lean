import NawaraCore.Lib.CalendarSound
import NawaraCore.Lib.SparseChange

/-!
# Wall-clock times of an operator's time zone

`localParts`, `offsetMs` and `zonedToUtc` over ECMAScript's dates and the zone of
`Intl.DateTimeFormat`, which is given by its offset at each instant. `none` is an invalid date, or
the error of formatting one. The main result is that `zonedToUtc` finds the instant of every
wall-clock time that the zone has.
-/

namespace NawaraCore.Availability

open Calendar (monthStart monthIndex)

def MINUTE : Int := 60000

def DAY : Int := 86400000

def timeClip (t : Int) : Option Int := if -8640000000000000 ≤ t ∧ t ≤ 8640000000000000 then some t else none

def dateUTC (y m d hh mm : Int) : Option Int :=
  let year := if 0 ≤ y ∧ y ≤ 99 then 1900 + y else y
  timeClip ((monthStart (12 * year + m + 1) + d - 1) * DAY + hh * 60 * MINUTE + mm * MINUTE)

structure Local where
  date : String
  dow : Int
  minutes : Int
  y : Int
  m : Int
  d : Int
deriving DecidableEq

def twoDigits (n : Int) : String := if n < 10 then "0" ++ toString n else toString n

/-- The parts that a local time in milliseconds is formatted to; a year before 1 is formatted without its era. -/
def partsOf (time : Int) : Local :=
  let day := time / DAY
  let month := monthIndex day
  let year := (month - 1) / 12
  let y := if year ≤ 0 then 1 - year else year
  let m := (month - 1) % 12 + 1
  let d := day - monthStart month + 1
  { date := toString y ++ "-" ++ twoDigits m ++ "-" ++ twoDigits d
    dow := (day + 4) % 7
    minutes := time % DAY / MINUTE
    y, m, d }

structure Zone where
  offset : Int → Int
  bounded : ∀ t, -840 ≤ offset t ∧ offset t ≤ 840
  apart : ChangesApart offset (2 * DAY)

variable (z : Zone) {time : Int}

def Zone.localTime (t : Int) : Int := t + z.offset t * MINUTE

def Zone.localParts (t : Int) : Option Local := (timeClip t).map fun t => partsOf (z.localTime t)

def Zone.offsetMs (t : Int) : Option Int := do
  let l ← z.localParts t
  let utc ← dateUTC l.y (l.m - 1) l.d (l.minutes / 60) (l.minutes % 60)
  some (utc - t / MINUTE * MINUTE)

def Zone.zonedToUtc (y m d hh mm : Int) : Option Int := do
  let guess ← dateUTC y (m - 1) d hh mm
  let offset ← z.offsetMs guess
  let first := guess - offset
  let again ← z.offsetMs first
  timeClip (guess - again)

def Zone.WholeMinutes : Prop := ∀ t, z.offset (t / MINUTE * MINUTE) = z.offset t

def startOfYear (y : Int) : Int := monthStart (12 * y + 1) * DAY

theorem dateUTC_partsOf (hyear : startOfYear 100 ≤ time) (hlast : time ≤ 8640000000000000) :
    dateUTC (partsOf time).y ((partsOf time).m - 1) (partsOf time).d ((partsOf time).minutes / 60) ((partsOf time).minutes % 60) =
      some (time / MINUTE * MINUTE) := by
  have hday : monthStart 1201 ≤ time / DAY := by
    have hstart : startOfYear 100 = monthStart 1201 * DAY := rfl
    rw [hstart] at hyear
    simp only [DAY] at hyear ⊢
    omega
  have hmonth : 1201 ≤ monthIndex (time / DAY) := by
    have := Calendar.monthIndex_mono hday
    rwa [Calendar.monthIndex_eq (Int.le_refl (monthStart 1201)) (Calendar.monthStart_lt 1201)] at this
  have hfirst : -59011459200000 ≤ time := by
    have hstart : startOfYear 100 = -59011459200000 := by decide
    omega
  have hyears : 100 ≤ (monthIndex (time / DAY) - 1) / 12 := by omega
  have hera : ¬ (monthIndex (time / DAY) - 1) / 12 ≤ 0 := by omega
  have hcentury : ¬ (0 ≤ (monthIndex (time / DAY) - 1) / 12 ∧ (monthIndex (time / DAY) - 1) / 12 ≤ 99) := by omega
  have hindex : 12 * ((monthIndex (time / DAY) - 1) / 12) + ((monthIndex (time / DAY) - 1) % 12 + 1 - 1) + 1 =
      monthIndex (time / DAY) := by omega
  simp only [partsOf, dateUTC, if_neg hera, if_neg hcentury, hindex]
  generalize monthIndex (time / DAY) = month
  have htime : (monthStart month + (time / DAY - monthStart month + 1) - 1) * DAY + time % DAY / MINUTE / 60 * 60 * MINUTE +
      time % DAY / MINUTE % 60 * MINUTE = time / MINUTE * MINUTE := by
    simp only [DAY, MINUTE]
    omega
  rw [htime]
  simp only [MINUTE]
  exact if_pos ⟨by omega, by omega⟩

/-! ## The conversion -/

variable {t : Int}

theorem timeClip_eq (hlow : -8640000000000000 ≤ t) (hhigh : t ≤ 8640000000000000) : timeClip t = some t :=
  if_pos ⟨hlow, hhigh⟩

theorem Zone.offsetMs_eq (hlow : startOfYear 100 ≤ z.localTime t) (hhigh : z.localTime t ≤ 8640000000000000 - 840 * MINUTE) :
    z.offsetMs t = some (z.offset t * MINUTE) := by
  have hbound := z.bounded t
  have hfirst : startOfYear 100 = -59011459200000 := by decide
  have hlocal : z.localTime t = t + z.offset t * 60000 := rfl
  simp only [MINUTE] at hhigh
  have hclip : timeClip t = some t := timeClip_eq (by omega) (by omega)
  have hlast : z.localTime t ≤ 8640000000000000 := by omega
  unfold Zone.offsetMs Zone.localParts
  rw [hclip, Option.map_some]
  simp only [Option.bind_eq_bind, Option.bind_some, dateUTC_partsOf hlow hlast, Option.some.injEq]
  simp only [Zone.localTime, MINUTE]
  omega

theorem Zone.zonedToUtc_eq (hlow : startOfYear 101 ≤ time) (hhigh : time < startOfYear 275760)
    (hminute : time % MINUTE = 0) :
    z.zonedToUtc (partsOf time).y (partsOf time).m (partsOf time).d ((partsOf time).minutes / 60) ((partsOf time).minutes % 60) =
      some (time - z.offset (time - z.offset time * MINUTE) * MINUTE) := by
  have hfirst : startOfYear 100 = -59011459200000 := by decide
  have hnext : startOfYear 101 = -58979923200000 := by decide
  have hlast : startOfYear 275760 = 8639977881600000 := by decide
  have hguess : dateUTC (partsOf time).y ((partsOf time).m - 1) (partsOf time).d ((partsOf time).minutes / 60)
      ((partsOf time).minutes % 60) = some time := by
    rw [dateUTC_partsOf (by omega) (by omega)]
    congr 1
    simp only [MINUTE] at hminute ⊢
    omega
  have hbound := z.bounded time
  have hagain := z.bounded (time - z.offset time * MINUTE)
  have hoffset : z.offsetMs time = some (z.offset time * MINUTE) := by
    apply z.offsetMs_eq
    · simp only [Zone.localTime, MINUTE]
      omega
    · simp only [Zone.localTime, MINUTE]
      omega
  have hchecked : z.offsetMs (time - z.offset time * MINUTE) = some (z.offset (time - z.offset time * MINUTE) * MINUTE) := by
    simp only [MINUTE] at hagain
    apply z.offsetMs_eq
    · simp only [Zone.localTime, MINUTE]
      omega
    · simp only [Zone.localTime, MINUTE]
      omega
  unfold Zone.zonedToUtc
  simp only [Option.bind_eq_bind, hguess, Option.bind_some, hoffset, hchecked]
  simp only [MINUTE] at hagain ⊢
  exact timeClip_eq (by omega) (by omega)

/-- **The second offset is the one of the instant that it gives.** The guess, the first instant and the true one lie in a window with
one transition at most. -/
theorem Zone.recheck (h : z.localTime t = time) :
    z.localTime (time - z.offset (time - z.offset time * MINUTE) * MINUTE) = time := by
  have hwindow : ∀ u, z.localTime u = time ∨ u = time ∨ u = time - z.offset time * MINUTE →
      u ∈ Set.Icc (time - 840 * MINUTE) (time - 840 * MINUTE + 2 * DAY) := by
    have hbound := z.bounded time
    intro u hu
    have hu' := z.bounded u
    simp only [Zone.localTime, MINUTE] at hu
    simp only [Set.mem_Icc, MINUTE, DAY]
    omega
  by_cases hsame : z.offset t = z.offset time
  · have hfirst : time - z.offset time * MINUTE = t := by
      rw [← hsame, ← h]
      unfold Zone.localTime
      omega
    rw [hfirst, hsame, hfirst]
    exact h
  · rcases z.apart.two_values (hwindow t (.inl h)) (hwindow time (.inr (.inl rfl))) (hwindow _ (.inr (.inr rfl))) hsame with he | he
    · -- the first instant is across the transition from the guess: the second offset is the true one
      have htrue : time - z.offset t * MINUTE = t := by
        rw [← h]
        unfold Zone.localTime
        omega
      rw [he, htrue]
      exact h
    · rw [he]
      unfold Zone.localTime
      rw [he]
      omega

theorem Zone.at_minute (h : z.WholeMinutes ∨ z.localTime t % MINUTE = 0) :
    ∃ u, z.localTime u = z.localTime t / MINUTE * MINUTE := by
  rcases h with hwhole | hminute
  · refine ⟨t / MINUTE * MINUTE, ?_⟩
    have hoffset := hwhole t
    simp only [Zone.localTime, MINUTE] at hoffset ⊢
    omega
  · refine ⟨t, ?_⟩
    simp only [MINUTE] at hminute ⊢
    omega

theorem partsOf_minute (time : Int) : partsOf (time / MINUTE * MINUTE) = partsOf time := by
  have hday : time / MINUTE * MINUTE / DAY = time / DAY := by
    simp only [MINUTE, DAY]
    omega
  have hminutes : time / MINUTE * MINUTE % DAY / MINUTE = time % DAY / MINUTE := by
    simp only [MINUTE, DAY]
    omega
  simp only [partsOf, hday, hminutes]

/-- **Every wall-clock time of a zone is found.** What the zone shows at an instant of the years 101 to 275759 it shows at the instant
that `zonedToUtc` gives, whatever the sizes and directions of its shifts. -/
theorem zonedToUtc_exact (z : Zone) (t : Int) (hlow : startOfYear 101 ≤ z.localTime t) (hhigh : z.localTime t < startOfYear 275760)
    (hminute : z.WholeMinutes ∨ z.localTime t % MINUTE = 0) :
    ∃ l r, z.localParts t = some l ∧ z.zonedToUtc l.y l.m l.d (l.minutes / 60) (l.minutes % 60) = some r ∧
      z.localParts r = some l := by
  have hfirst : startOfYear 101 = -58979923200000 := by decide
  have hlast : startOfYear 275760 = 8639977881600000 := by decide
  obtain ⟨u, hu⟩ := z.at_minute hminute
  generalize htime : z.localTime t / MINUTE * MINUTE = time at hu
  have hparts : partsOf (z.localTime t) = partsOf time := by rw [← htime, partsOf_minute]
  have hbounds : startOfYear 101 ≤ time ∧ time < startOfYear 275760 ∧ time % MINUTE = 0 := by
    simp only [MINUTE] at htime ⊢
    omega
  have hresult := z.zonedToUtc_eq hbounds.1 hbounds.2.1 hbounds.2.2
  have hrecheck := z.recheck hu
  generalize hr : time - z.offset (time - z.offset time * MINUTE) * MINUTE = r at hresult hrecheck
  have hclip : ∀ v, z.localTime v = z.localTime t ∨ z.localTime v = time → timeClip v = some v := by
    intro v hv
    have hbound := z.bounded v
    obtain ⟨hb₁, hb₂, -⟩ := hbounds
    simp only [Zone.localTime, MINUTE] at hv hlow hhigh
    exact timeClip_eq (by omega) (by omega)
  refine ⟨partsOf time, r, ?_, hresult, ?_⟩
  · rw [Zone.localParts, hclip t (.inl rfl), Option.map_some, hparts]
  · rw [Zone.localParts, hclip r (.inr hrecheck), Option.map_some, hrecheck]

def fixedZone (offset : Int) (h : -840 ≤ offset ∧ offset ≤ 840) : Zone :=
  ⟨fun _ => offset, fun _ => h, fun _ _ _ hs _ => absurd rfl hs⟩

def springForward : Zone where
  offset t := if t < 0 then -60 else 0
  bounded t := by split <;> omega
  apart s t hst hs ht := by
    have hone : ∀ u, ChangesAt (fun t : Int => if t < 0 then (-60 : Int) else 0) u → u = 0 := by
      intro u hu
      by_contra hne
      refine hu ?_
      dsimp only
      by_cases h : u < 0
      · rw [if_pos (by omega), if_pos h]
      · rw [if_neg (by omega), if_neg h]
    have := hone s hs
    have := hone t ht
    omega

theorem zonedToUtc_exact_spring :
    ∃ l r, springForward.localParts 1800000 = some l ∧
      springForward.zonedToUtc l.y l.m l.d (l.minutes / 60) (l.minutes % 60) = some r ∧ springForward.localParts r = some l :=
  zonedToUtc_exact springForward 1800000 (by decide) (by decide) (.inr (by decide))

/-- **Early on 1 January 100, six hours west, the guess falls in the year 99, which `Date.UTC` takes for 1999; and at the last instant
of all the guess is no date.** -/
theorem zonedToUtc_century :
    (¬ ∀ (z : Zone) (t : Int) (l : Local), z.WholeMinutes → z.localParts t = some l → l.y ≤ 275759 →
      ∃ r, z.zonedToUtc l.y l.m l.d (l.minutes / 60) (l.minutes % 60) = some r ∧ z.localParts r = some l) ∧
    ¬ ∀ (z : Zone) (t : Int) (l : Local), z.WholeMinutes → z.localParts t = some l → 101 ≤ l.y →
      ∃ r, z.zonedToUtc l.y l.m l.d (l.minutes / 60) (l.minutes % 60) = some r ∧ z.localParts r = some l := by
  constructor
  · intro h
    obtain ⟨r, hr, hl⟩ := h (fixedZone (-360) (by decide)) (-59011419600000) ⟨"100-01-01", 5, 300, 100, 1, 1⟩ (fun _ => rfl)
      (by decide +kernel) (by decide)
    have hcomputed : (fixedZone (-360) (by decide)).zonedToUtc 100 1 1 5 0 = some (-172647982800000) := by decide +kernel
    obtain rfl := Option.some.inj (hcomputed.symm.trans hr)
    exact absurd hl (by decide +kernel)
  · intro h
    obtain ⟨r, hr, -⟩ := h (fixedZone 840 (by decide)) 8640000000000000 ⟨"275760-09-13", 6, 840, 275760, 9, 13⟩ (fun _ => rfl)
      (by decide +kernel) (by decide)
    have hcomputed : (fixedZone 840 (by decide)).zonedToUtc 275760 9 13 14 0 = none := by decide +kernel
    cases hcomputed.symm.trans hr

end NawaraCore.Availability
