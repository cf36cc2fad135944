import LiteMQ.Foundation.Calendar
import LiteMQ.Gears.Time

/-!
# The calendar of `time_to_gm` and `gm_to_time`

Both count with a leap day in every fourth year from 1972 on (`codeCalendar`).  In that
calendar they are inverse to each other, on all times and on all dates
(`timeToGm_bijective`).

They are documented as `gmtime_r(3)` and `timegm(3)`, whose calendar has no leap day in
2100, so they are what they are said to be exactly up to the end of February 2100
(`timeToGm_gregorian_iff`): the day behind it is the 29th of February for them.
-/

namespace LiteMQ.Gears

/-- Every fourth year is a leap year. -/
def codeCalendar : Calendar := ⟨1970, fun year => (year - 1970) % 4 == 2⟩

/-- A year that is divisible by 4 and not by 100, or by 400, is a leap year. -/
def gregorian : Calendar :=
  ⟨1970, fun year => year % 4 == 0 && (year % 100 != 0 || year % 400 == 0)⟩

namespace ExtendedTime

def date (t : ExtendedTime) : Calendar.Date := ⟨t.year + 1900, t.mon, t.mday⟩

/-- The fields are a date of the calendar and a time of a day. -/
structure InCalendar (c : Calendar) (t : ExtendedTime) : Prop where
  date : t.date.Valid c
  hour : t.hour < 24
  min : t.min < 60
  sec : t.sec < 60

/-- The POSIX time of a date in UTC. -/
def posixTime (t : ExtendedTime) : Nat :=
  gregorian.dayNumber t.date * 86400 + t.hour * 3600 + t.min * 60 + t.sec

/-- What `gmtime_r(3)` says of a time. -/
structure IsGmtime (time : Nat) (t : ExtendedTime) : Prop where
  calendar : t.InCalendar gregorian
  posix : t.posixTime = time
  wday : t.wday = (time / 86400 + 4) % 7
  yday : t.yday = gregorian.dayOfYear t.date

end ExtendedTime

/-! ## The tables are the calendar -/

theorem daysTable_eq : ∀ leap, ∀ m < 12,
    (daysTable leap).getD m 0 = Calendar.daysBeforeMonth leap m := by
  decide

theorem codeCalendar_daysOfYears (n : Nat) :
    codeCalendar.daysOfYears n = n * 365 + (n + 1) / 4 := by
  induction n with
  | zero => rfl
  | succ n ih =>
      have hleap : codeCalendar.leap (codeCalendar.epoch + n) = (n % 4 == 2) := by
        show ((1970 + n - 1970) % 4 == 2) = (n % 4 == 2)
        rw [Nat.add_sub_cancel_left]
      rw [Calendar.daysOfYears, ih, hleap, Calendar.yearLength]
      by_cases htwo : n % 4 = 2
      · rw [if_pos (by simpa using htwo)]
        omega
      · rw [if_neg (by simpa using htwo)]
        omega

theorem dayNumber_eq {t : ExtendedTime} (h : t.date.Valid codeCalendar) :
    codeCalendar.dayNumber t.date = dayNumber t := by
  have hpos : 1 ≤ t.mday := h.day_pos
  have hyears : t.year + 1900 - 1970 = t.year - 70 := by omega
  have hleap : codeCalendar.leap (t.year + 1900) = ((t.year - 70) % 4 == 2) := by
    show ((t.year + 1900 - 1970) % 4 == 2) = _
    rw [hyears]
  unfold Calendar.dayNumber Calendar.dayOfYear dayNumber
  show codeCalendar.daysOfYears (t.year + 1900 - 1970) +
    (Calendar.daysBeforeMonth (codeCalendar.leap (t.year + 1900)) t.mon + (t.mday - 1)) = _
  rw [codeCalendar_daysOfYears, hyears, hleap, daysTable_eq _ t.mon h.month]
  omega

theorem gmToTime_eq {t : ExtendedTime} (h : t.date.Valid codeCalendar) :
    gmToTime t =
      codeCalendar.dayNumber t.date * 86400 + t.hour * 3600 + t.min * 60 + t.sec := by
  rw [dayNumber_eq h, gmToTime_parts]

/-- The day of the month that `lower_bound` finds is one of the month. -/
theorem monthOf_mday : ∀ leap, ∀ yday < 366, (leap = true ∨ yday < 365) →
    yday + 1 - (daysTable leap).getD (monthOf leap yday) 0 ≤
      Calendar.monthLength leap (monthOf leap yday) := by
  decide +kernel

/-- The date of a time is of the year and the month that its day is in. -/
theorem timeToGm_split (time : Nat) :
    ∃ yday leap, yday < 366 ∧ (leap = true ∨ yday < 365) ∧
      codeCalendar.leap (timeToGm time).date.year = leap ∧ (timeToGm time).yday = yday ∧
      (timeToGm time).mon = monthOf leap yday ∧
      (timeToGm time).mday = yday + 1 - (daysTable leap).getD (monthOf leap yday) 0 := by
  rcases hsplit : splitCycle (time / 60 / 60 / 24 % (4 * 365 + 1)) with ⟨year, yday, leap⟩
  obtain ⟨hyear, hleap, hyday, hrange, -⟩ := splitCycle_spec (Nat.mod_lt _ (by omega)) hsplit
  have hsame : codeCalendar.leap (timeToGm time).date.year = leap := by
    show (((timeToGm time).year + 1900 - 1970) % 4 == 2) = leap
    simp only [timeToGm, hsplit]
    rw [hleap, show ∀ n, n * 4 + year + 70 + 1900 - 1970 = n * 4 + year by omega,
      Nat.mul_add_mod_self_right, Nat.mod_eq_of_lt hyear]
  refine ⟨yday, leap, hyday, hrange, hsame, ?_⟩
  simp only [timeToGm, hsplit, and_self]

theorem timeToGm_inCalendar (time : Nat) : (timeToGm time).InCalendar codeCalendar := by
  have hrange := timeToGm_inRange time
  refine ⟨⟨?_, hrange.mon, hrange.mday_pos, ?_⟩, hrange.hour, hrange.min, hrange.sec⟩
  · show 1970 ≤ (timeToGm time).year + 1900
    have hyear := hrange.year
    omega
  · obtain ⟨yday, leap, hyday, hleap, hyear, -, hmon, hmday⟩ := timeToGm_split time
    rw [hyear]
    show (timeToGm time).mday ≤ Calendar.monthLength leap (timeToGm time).mon
    rw [hmon, hmday]
    exact monthOf_mday leap yday hyday hleap

theorem timeToGm_yday (time : Nat) :
    (timeToGm time).yday = codeCalendar.dayOfYear (timeToGm time).date := by
  obtain ⟨yday, leap, hyday, hleap, hyear, hday, hmon, hmday⟩ := timeToGm_split time
  obtain ⟨hmonth, hbefore, -⟩ := monthOf_spec leap yday hyday hleap
  rw [Calendar.dayOfYear, hyear, hday]
  show yday = Calendar.daysBeforeMonth leap (timeToGm time).mon + ((timeToGm time).mday - 1)
  rw [hmon, hmday, ← daysTable_eq leap _ hmonth]
  omega

/-- The days of the time. -/
theorem timeToGm_dayNumber (time : Nat) :
    codeCalendar.dayNumber (timeToGm time).date = time / 86400 := by
  have hrange := timeToGm_inCalendar time
  have htime := gmToTime_eq hrange.date
  rw [gmToTime_timeToGm] at htime
  have hhour := hrange.hour
  have hmin := hrange.min
  have hsec := hrange.sec
  omega

theorem timeToGm_clock (time : Nat) :
    (timeToGm time).hour = time / 60 / 60 % 24 ∧ (timeToGm time).min = time / 60 % 60 ∧
      (timeToGm time).sec = time % 60 ∧ (timeToGm time).wday = (time / 60 / 60 / 24 + 4) % 7 :=
  ⟨rfl, rfl, rfl, rfl⟩

theorem timeToGm_gmToTime {t : ExtendedTime} (h : t.InCalendar codeCalendar) :
    (timeToGm (gmToTime t)).date = t.date ∧ (timeToGm (gmToTime t)).hour = t.hour ∧
      (timeToGm (gmToTime t)).min = t.min ∧ (timeToGm (gmToTime t)).sec = t.sec := by
  have htime := gmToTime_eq h.date
  have hhour := h.hour
  have hmin := h.min
  have hsec := h.sec
  obtain ⟨hhour', hmin', hsec', -⟩ := timeToGm_clock (gmToTime t)
  rw [hhour', hmin', hsec']
  refine ⟨?_, by omega, by omega, by omega⟩
  -- both dates have the same number of days before them
  apply Calendar.dayNumber_injective (timeToGm_inCalendar _).date h.date
  rw [timeToGm_dayNumber]
  omega

theorem gmToTime_lt {t : ExtendedTime} (h : t.InCalendar codeCalendar) (hyear : t.year < 2 ^ 31) :
    gmToTime t < 2 ^ 63 := by
  have htime := gmToTime_eq h.date
  have hday := h.date.dayNumber_lt
  have hhour := h.hour
  have hmin := h.min
  have hsec := h.sec
  rw [codeCalendar_daysOfYears] at hday
  change _ < (t.year + 1900 - 1970 + 1) * 365 + (t.year + 1900 - 1970 + 1 + 1) / 4 at hday
  omega

/-- The conversions are inverse, and all that they give is in range. -/
theorem timeToGm_bijective :
    (∀ time, gmToTime (timeToGm time) = time ∧ (timeToGm time).InCalendar codeCalendar ∧
        (timeToGm time).wday < 7) ∧
      ∀ t : ExtendedTime, t.InCalendar codeCalendar → t.year < 2 ^ 31 →
        gmToTime t < 2 ^ 63 ∧ (timeToGm (gmToTime t)).year = t.year ∧
          (timeToGm (gmToTime t)).mon = t.mon ∧ (timeToGm (gmToTime t)).mday = t.mday ∧
          (timeToGm (gmToTime t)).hour = t.hour ∧ (timeToGm (gmToTime t)).min = t.min ∧
          (timeToGm (gmToTime t)).sec = t.sec := by
  constructor
  · intro time
    exact ⟨gmToTime_timeToGm time, timeToGm_inCalendar time, (timeToGm_inRange time).wday⟩
  · intro t ht hyear
    obtain ⟨hdate, hclock⟩ := timeToGm_gmToTime ht
    obtain ⟨hyears, hmon, hmday⟩ := Calendar.Date.mk.inj hdate
    exact ⟨gmToTime_lt ht hyear, Nat.add_right_cancel hyears, hmon, hmday, hclock⟩

/-- The 29th of February 2000, 23:59:58. -/
theorem timeToGm_bijective_leapDay :
    gmToTime ⟨58, 59, 23, 29, 1, 100, 2, 59, 0⟩ < 2 ^ 63 ∧
      (timeToGm (gmToTime ⟨58, 59, 23, 29, 1, 100, 2, 59, 0⟩)).year = 100 ∧
      (timeToGm (gmToTime ⟨58, 59, 23, 29, 1, 100, 2, 59, 0⟩)).mon = 1 ∧
      (timeToGm (gmToTime ⟨58, 59, 23, 29, 1, 100, 2, 59, 0⟩)).mday = 29 ∧
      (timeToGm (gmToTime ⟨58, 59, 23, 29, 1, 100, 2, 59, 0⟩)).hour = 23 ∧
      (timeToGm (gmToTime ⟨58, 59, 23, 29, 1, 100, 2, 59, 0⟩)).min = 59 ∧
      (timeToGm (gmToTime ⟨58, 59, 23, 29, 1, 100, 2, 59, 0⟩)).sec = 58 :=
  timeToGm_bijective.2 ⟨58, 59, 23, 29, 1, 100, 2, 59, 0⟩
    ⟨⟨by decide, by decide, by decide, by decide⟩, by decide, by decide, by decide⟩ (by decide)

/-! ## The Gregorian calendar -/

/-- The Gregorian calendar has no leap day in 2100. -/
theorem gregorian_dropsFirst : codeCalendar.DropsFirst gregorian 2100 := by
  refine ⟨rfl, by decide, ?_, ?_, by decide, by decide⟩
  · intro y hfirst hleap
    change 1970 ≤ y at hfirst
    simp only [gregorian, codeCalendar, Bool.and_eq_true, beq_iff_eq] at hleap ⊢
    omega
  · intro y hfirst hbefore
    change 1970 ≤ y at hfirst
    rw [Bool.eq_iff_iff]
    simp only [gregorian, codeCalendar, Bool.and_eq_true, Bool.or_eq_true, beq_iff_eq, bne_iff_ne]
    omega

/-- `gm_to_time` is `timegm` on the dates before March 2100. -/
theorem gmToTime_eq_posixTime_iff {t : ExtendedTime} (h : t.InCalendar gregorian) :
    gmToTime t = t.posixTime ↔ t.date.BeforeMarch 2100 := by
  rw [← gregorian_dropsFirst.dayNumber_eq_iff h.date,
    gmToTime_eq (gregorian_dropsFirst.valid h.date), ExtendedTime.posixTime]
  constructor
  · intro hsame
    omega
  · intro hsame
    rw [hsame]

/-- The day that the Gregorian calendar does not have begins at this time. -/
theorem dayNumber_lt_leapDay (time : Nat) :
    codeCalendar.dayNumber (timeToGm time).date < codeCalendar.dayNumber ⟨2100, 1, 29⟩ ↔
      time < 4107542400 := by
  rw [timeToGm_dayNumber, show codeCalendar.dayNumber ⟨2100, 1, 29⟩ = 47541 by decide +kernel]
  omega

/-- `time_to_gm` is `gmtime_r` before March 2100. -/
theorem timeToGm_isGmtime_iff (time : Nat) :
    (timeToGm time).IsGmtime time ↔ time < 4107542400 := by
  have hcode := timeToGm_inCalendar time
  rw [← dayNumber_lt_leapDay]
  constructor
  · intro h
    -- the date of the time is one of both calendars, and `gm_to_time` undoes it in both
    have hbefore := (gmToTime_eq_posixTime_iff h.calendar).mp (by rw [h.posix, gmToTime_timeToGm])
    exact gregorian_dropsFirst.dayNumber_lt_of_beforeMarch h.calendar.date hbefore
  · intro h
    obtain ⟨hdate, hbefore⟩ := gregorian_dropsFirst.valid_of_dayNumber_lt hcode.date h
    have hcalendar : (timeToGm time).InCalendar gregorian :=
      ⟨hdate, hcode.hour, hcode.min, hcode.sec⟩
    have hposix : (timeToGm time).posixTime = time := by
      rw [← (gmToTime_eq_posixTime_iff hcalendar).mpr hbefore, gmToTime_timeToGm]
    have hwday : (timeToGm time).wday = (time / 86400 + 4) % 7 := by
      rw [(timeToGm_clock time).2.2.2, Nat.div_div_eq_div_mul, Nat.div_div_eq_div_mul]
    refine ⟨hcalendar, hposix, hwday, ?_⟩
    rw [gregorian_dropsFirst.dayOfYear_eq hdate hbefore]
    exact timeToGm_yday time

/-- The conversions are those of the Gregorian calendar exactly before March 2100. -/
theorem timeToGm_gregorian_iff (time : Nat) (t : ExtendedTime) (ht : t.InCalendar gregorian) :
    ((timeToGm time).IsGmtime time ↔ time < 4107542400) ∧
      (gmToTime t = t.posixTime ↔ t.date.BeforeMarch 2100) :=
  ⟨timeToGm_isGmtime_iff time, gmToTime_eq_posixTime_iff ht⟩

/-- The first second of March 2000 is before, the first of March 2100 is not. -/
theorem timeToGm_gregorian_iff_march :
    ((timeToGm 951868800).IsGmtime 951868800 ↔ 951868800 < 4107542400) ∧
      (gmToTime ⟨0, 0, 0, 1, 2, 200, 1, 59, 0⟩ =
          ExtendedTime.posixTime ⟨0, 0, 0, 1, 2, 200, 1, 59, 0⟩ ↔
        (ExtendedTime.date ⟨0, 0, 0, 1, 2, 200, 1, 59, 0⟩).BeforeMarch 2100) :=
  timeToGm_gregorian_iff 951868800 ⟨0, 0, 0, 1, 2, 200, 1, 59, 0⟩
    ⟨⟨by decide, by decide, by decide, by decide⟩, by decide, by decide, by decide⟩

/-- The day after the 28th of February 2100 is not the 29th, and the 1st of March is not a
day later. -/
theorem timeToGm_not_gregorian :
    (timeToGm 4107542400).date = ⟨2100, 1, 29⟩ ∧ ¬(timeToGm 4107542400).IsGmtime 4107542400 ∧
      ExtendedTime.InCalendar gregorian ⟨0, 0, 0, 1, 2, 200, 1, 59, 0⟩ ∧
      ExtendedTime.posixTime ⟨0, 0, 0, 1, 2, 200, 1, 59, 0⟩ = 4107542400 ∧
      gmToTime ⟨0, 0, 0, 1, 2, 200, 1, 59, 0⟩ = 4107628800 := by
  have hdate : (timeToGm 4107542400).date = ⟨2100, 1, 29⟩ := by decide +kernel
  refine ⟨hdate, ?_, ⟨⟨by decide, by decide, by decide, by decide⟩, by decide, by decide,
    by decide⟩, by decide +kernel, by decide +kernel⟩
  intro h
  have hday := h.calendar.date.day
  rw [hdate] at hday
  revert hday
  decide

end LiteMQ.Gears
