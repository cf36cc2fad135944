import Mathlib.Algebra.Ring.Nat
import Mathlib.Data.List.Basic

/-!
# `Gears::Time` and its split form

`time_to_gm` splits the seconds since the epoch, and `gm_to_time` puts them together
again.  Both take every fourth year for a leap year, so they agree for all times, also
where that is not the calendar's rule (`gmToTime_timeToGm`).

Times are from the epoch on, so that all numbers here are natural.
-/

namespace LiteMQ.Gears

/-- A `Time` that is not before the epoch. -/
structure Time where
  tvSec : Nat
  tvUsec : Nat
  deriving DecidableEq, Repr

/-- An `ExtendedTime` in `TZ_GMT`: the fields of `tm`, and `tm_usec`. -/
structure ExtendedTime where
  sec : Nat
  min : Nat
  hour : Nat
  mday : Nat
  mon : Nat
  year : Nat
  wday : Nat
  yday : Nat
  usec : Nat
  deriving DecidableEq, Repr

/-- `DAYS`: the days of the year before each month, by whether it is a leap year. -/
def daysTable : Bool → List Nat
  | false => [0, 31, 59, 90, 120, 151, 181, 212, 243, 273, 304, 334]
  | true => [0, 31, 60, 91, 121, 152, 182, 213, 244, 274, 305, 335]

/-- `gm_to_time`. -/
def gmToTime (t : ExtendedTime) : Nat :=
  let years := t.year - 70
  (years * 365 + (years + 1) / 4 + (daysTable (years % 4 == 2)).getD t.mon 0 + t.mday - 1) * 86400 +
    t.hour * 3600 + t.min * 60 + t.sec

/-- The year of a cycle of four that a day of the cycle is in, the day of that year, and
whether it is a leap year. -/
def splitCycle (time : Nat) : Nat × Nat × Bool :=
  if 365 ≤ time then
    if 365 * 2 ≤ time then
      if 365 * 3 + 1 ≤ time then (3, time - (365 * 3 + 1), false)
      else (2, time - 365 * 2, true)
    else (1, time - 365, false)
  else (0, time, false)

/-- `std::lower_bound(CDAYS + 1, CDAYS + 12, yday + 1) - 1`, as an index. -/
def monthOf (leap : Bool) (yday : Nat) : Nat :=
  (daysTable leap).tail.findIdx fun before => yday + 1 ≤ before

/-- `time_to_gm`. -/
def timeToGm (time : Nat) : ExtendedTime :=
  let days := time / 60 / 60 / 24
  let (year, yday, leap) := splitCycle (days % (4 * 365 + 1))
  { sec := time % 60
    min := time / 60 % 60
    hour := time / 60 / 60 % 24
    mday := yday + 1 - (daysTable leap).getD (monthOf leap yday) 0
    mon := monthOf leap yday
    year := days / (4 * 365 + 1) * 4 + year + 70
    wday := (days + 4) % 7
    yday := yday
    usec := 0 }

/-- `ExtendedTime(sec, usec, TZ_GMT)`. -/
def ExtendedTime.ofTime (sec usec : Nat) : ExtendedTime := { timeToGm sec with usec := usec }

/-- `Time::get_gm_time`. -/
def Time.getGmTime (t : Time) : ExtendedTime := .ofTime t.tvSec t.tvUsec

/-- `ExtendedTime::operator Time`. -/
def ExtendedTime.toTime (t : ExtendedTime) : Time := ⟨gmToTime t, t.usec⟩

/-- The ranges of the fields of a split time. -/
structure ExtendedTime.InRange (t : ExtendedTime) : Prop where
  sec : t.sec < 60
  min : t.min < 60
  hour : t.hour < 24
  mday_pos : 1 ≤ t.mday
  mday : t.mday ≤ 31
  mon : t.mon < 12
  year : 70 ≤ t.year
  wday : t.wday < 7

/-- The days since the epoch. -/
def dayNumber (t : ExtendedTime) : Nat :=
  (t.year - 70) * 365 + (t.year - 70 + 1) / 4 +
    (daysTable ((t.year - 70) % 4 == 2)).getD t.mon 0 + t.mday - 1

theorem gmToTime_parts (t : ExtendedTime) :
    gmToTime t = dayNumber t * 86400 + t.hour * 3600 + t.min * 60 + t.sec := rfl

/-- The day is what `gm_to_time` makes of the date. -/
theorem dayNumber_of_gmToTime {t tm : ExtendedTime} (h : gmToTime tm = gmToTime t)
    (hsec : t.sec < 60 ∧ tm.sec < 60) (hmin : t.min < 60 ∧ tm.min < 60)
    (hhour : t.hour < 24 ∧ tm.hour < 24) : dayNumber tm = dayNumber t := by
  rw [gmToTime_parts, gmToTime_parts] at h
  omega

/-- Months of one year begin 9 to 28 days apart only where the first is February. -/
theorem month_gap : ∀ leap, ∀ m < 12, ∀ m' < 12,
    (daysTable leap).getD m' 0 + 9 ≤ (daysTable leap).getD m 0 →
      (daysTable leap).getD m 0 ≤ (daysTable leap).getD m' 0 + 28 → m' = 1 ∧ m = 2 := by
  decide +kernel

theorem daysTable_le : ∀ leap, ∀ m < 12,
    (daysTable leap).getD m 0 ≤ if leap then 335 else 334 := by
  decide +kernel

/-- One date with two days of the month that are 9 to 28 apart: February runs over. -/
theorem february_of_dayNumber {t tm : ExtendedTime} (h : dayNumber tm = dayNumber t)
    (hmon : t.mon < 12 ∧ tm.mon < 12) (hpos : 1 ≤ t.mday) (hgap : t.mday + 9 ≤ tm.mday)
    (hgap' : tm.mday ≤ t.mday + 28) : tm.mon = 1 ∧ t.mon = 2 := by
  have htable := daysTable_le ((t.year - 70) % 4 == 2) t.mon hmon.1
  have htable' := daysTable_le ((tm.year - 70) % 4 == 2) tm.mon hmon.2
  unfold dayNumber at h
  revert h htable htable'
  generalize t.year - 70 = year
  generalize tm.year - 70 = year'
  intro h htable htable'
  by_cases hyear : year' = year
  · subst hyear
    exact month_gap (year' % 4 == 2) t.mon hmon.1 tm.mon hmon.2 (by omega) (by omega)
  · exfalso
    simp only [beq_iff_eq] at htable htable'
    split at htable
    · split at htable'
      · omega
      · omega
    · split at htable'
      · omega
      · omega

/-- Each day of the year is a day of the month that `monthOf` finds. -/
theorem monthOf_spec : ∀ leap, ∀ yday < 366, (leap = true ∨ yday < 365) →
    monthOf leap yday < 12 ∧ (daysTable leap).getD (monthOf leap yday) 0 ≤ yday ∧
      yday + 1 - (daysTable leap).getD (monthOf leap yday) 0 ≤ 31 := by
  decide +kernel

/-- A cycle of four years has its leap day in the third. -/
theorem splitCycle_spec {time year yday : Nat} {leap : Bool} (h : time < 4 * 365 + 1)
    (hsplit : splitCycle time = (year, yday, leap)) :
    year < 4 ∧ leap = (year == 2) ∧ yday < 366 ∧ (leap = true ∨ yday < 365) ∧
      year * 365 + (year + 1) / 4 + yday = time := by
  unfold splitCycle at hsplit
  split at hsplit
  · split at hsplit
    · split at hsplit
      · simp only [Prod.mk.injEq] at hsplit
        obtain ⟨rfl, rfl, rfl⟩ := hsplit
        refine ⟨by omega, rfl, by omega, Or.inr (by omega), by omega⟩
      · simp only [Prod.mk.injEq] at hsplit
        obtain ⟨rfl, rfl, rfl⟩ := hsplit
        refine ⟨by omega, rfl, by omega, Or.inl rfl, by omega⟩
    · simp only [Prod.mk.injEq] at hsplit
      obtain ⟨rfl, rfl, rfl⟩ := hsplit
      refine ⟨by omega, rfl, by omega, Or.inr (by omega), by omega⟩
  · simp only [Prod.mk.injEq] at hsplit
    obtain ⟨rfl, rfl, rfl⟩ := hsplit
    refine ⟨by omega, rfl, by omega, Or.inr (by omega), by omega⟩

theorem timeToGm_inRange (time : Nat) : (timeToGm time).InRange := by
  rcases hsplit : splitCycle (time / 60 / 60 / 24 % (4 * 365 + 1)) with ⟨year, yday, leap⟩
  obtain ⟨-, -, hyday, hleap, -⟩ := splitCycle_spec (Nat.mod_lt _ (by omega)) hsplit
  obtain ⟨hmon, hbefore, hmday⟩ := monthOf_spec leap yday hyday hleap
  simp only [timeToGm, hsplit]
  constructor
  · exact Nat.mod_lt _ (by omega)
  · exact Nat.mod_lt _ (by omega)
  · exact Nat.mod_lt _ (by omega)
  · show 1 ≤ yday + 1 - (daysTable leap).getD (monthOf leap yday) 0
    omega
  · exact hmday
  · exact hmon
  · exact Nat.le_add_left _ _
  · exact Nat.mod_lt _ (by omega)

/-- Seconds put together from their parts. -/
theorem seconds_of_parts (time : Nat) :
    time / 60 / 60 / 24 * 86400 + time / 60 / 60 % 24 * 3600 + time / 60 % 60 * 60 + time % 60 =
      time := by
  omega

/-- `gm_to_time` is the inverse of `time_to_gm`. -/
theorem gmToTime_timeToGm (time : Nat) : gmToTime (timeToGm time) = time := by
  rcases hsplit : splitCycle (time / 60 / 60 / 24 % (4 * 365 + 1)) with ⟨year, yday, leap⟩
  obtain ⟨hyear, hleap, hyday, hrange, hsum⟩ := splitCycle_spec (Nat.mod_lt _ (by omega)) hsplit
  obtain ⟨-, hbefore, -⟩ := monthOf_spec leap yday hyday hrange
  have hcycle := Nat.div_add_mod (time / 60 / 60 / 24) (4 * 365 + 1)
  have hseconds := seconds_of_parts time
  simp only [timeToGm, gmToTime, hsplit]
  revert hsum hbefore hcycle hseconds
  generalize time / 60 / 60 / 24 / (4 * 365 + 1) = cycles
  generalize time / 60 / 60 / 24 % (4 * 365 + 1) = day
  generalize time / 60 / 60 / 24 = days
  intro hsum hbefore hcycle hseconds
  have hsame : ((cycles * 4 + year + 70 - 70) % 4 == 2) = leap := by
    rw [hleap, Nat.add_sub_cancel, Nat.mul_add_mod_self_right, Nat.mod_eq_of_lt hyear]
  rw [hsame]
  revert hbefore
  generalize (daysTable leap).getD (monthOf leap yday) 0 = before
  intro hbefore
  have hdays : (cycles * 4 + year + 70 - 70) * 365 + (cycles * 4 + year + 70 - 70 + 1) / 4 + before +
      (yday + 1 - before) - 1 = days := by
    omega
  rw [hdays]
  exact hseconds

end LiteMQ.Gears
