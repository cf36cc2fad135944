import LiteMQ.Gears.TimeRoundTrip

/-!
# `gm_f`, `gm_ft`, `set_f` and `set_ft`

The short forms are written with `%F` and `%T`, for which `to_str_` calls itself, and read
with the specifiers spelled out.  What is written is read back: the time without its
microseconds, and the beginning of its day (`set_shortForms`).
-/

namespace LiteMQ.Gears

namespace Time

/-- `gm_f` -/
def gmF (t : Time) : Option (List Char) := t.getGmTime.format "%F".toList

/-- `gm_ft` -/
def gmFt (t : Time) : Option (List Char) := t.getGmTime.format "%F %T".toList

/-- `set_f` -/
def setF (value : List Char) (strict : Bool) : Except String Time :=
  Time.set value "%Y-%m-%d".toList strict

/-- `set_ft` -/
def setFt (value : List Char) (strict : Bool) : Except String Time :=
  Time.set value "%Y-%m-%d %H:%M:%S".toList strict

end Time

namespace ExtendedTime

/-- What stands for itself in a format. -/
def Literal.of (c : Char) (h : c.isAlpha = false ∧ c ≠ '%') : Literal := ⟨c, h.1, h.2⟩

theorem dash_plain : '-'.isAlpha = false ∧ '-' ≠ '%' := by decide
theorem colon_plain : ':'.isAlpha = false ∧ ':' ≠ '%' := by decide
theorem blank_plain : ' '.isAlpha = false ∧ ' ' ≠ '%' := by decide

def dash : Item := .literal (.of '-' dash_plain)
def colon : Item := .literal (.of ':' colon_plain)
def blank : Item := .literal (.of ' ' blank_plain)

/-- What `%F` stands for. -/
def dateItems : List Item := [.spec .Y, dash, .spec .m, dash, .spec .d]

/-- What `%T` stands for. -/
def clockItems : List Item := [.spec .H, colon, .spec .M, colon, .spec .S]

theorem formatOf_dateItems : formatOf dateItems = "%Y-%m-%d".toList := rfl

theorem formatOf_dateClock :
    formatOf (dateItems ++ blank :: clockItems) = "%Y-%m-%d %H:%M:%S".toList := rfl

theorem specOutput_F (t : ExtendedTime) : t.specOutput 'F' = some (outputs t dateItems) := rfl

theorem specOutput_T (t : ExtendedTime) : t.specOutput 'T' = some (outputs t clockItems) := rfl

theorem length_dateItems (t : ExtendedTime) : (outputs t dateItems).length = 10 := rfl

theorem length_clockItems (t : ExtendedTime) : (outputs t clockItems).length = 8 := rfl

theorem format_F (t : ExtendedTime) : t.format "%F".toList = some (outputs t dateItems) := rfl

theorem format_FT (t : ExtendedTime) :
    t.format "%F %T".toList = some (outputs t (dateItems ++ blank :: clockItems)) := rfl

/-- Without `%e` every item is read where it was written. -/
theorem fromStr_dateItems {t : ExtendedTime} (ht : t.Printable) (strict : Bool)
    (tm : ExtendedTime) :
    fromStr_ strict (formatOf dateItems) (outputs t dateItems) tm =
      .ok { tm with year := t.year, mon := t.mon, mday := t.mday } := by
  have hstart : outputs t dateItems = skipped strict false (outputs t dateItems) :=
    (if_neg (by simp)).symm
  rw [hstart]
  exact fromStr_outputs ht (Or.inr (by simp [dateItems, dash, EachDay])) tm

theorem fromStr_dateClock {t : ExtendedTime} (ht : t.Printable) (strict : Bool)
    (tm : ExtendedTime) :
    fromStr_ strict (formatOf (dateItems ++ blank :: clockItems))
        (outputs t (dateItems ++ blank :: clockItems)) tm =
      .ok { tm with
        year := t.year, mon := t.mon, mday := t.mday, hour := t.hour, min := t.min,
        sec := t.sec } := by
  have hstart : outputs t (dateItems ++ blank :: clockItems) =
      skipped strict false (outputs t (dateItems ++ blank :: clockItems)) :=
    (if_neg (by simp)).symm
  rw [hstart]
  exact fromStr_outputs ht
    (Or.inr (by simp [dateItems, clockItems, dash, colon, blank, EachDay])) tm

end ExtendedTime

namespace Time

open ExtendedTime

/-- The day of a time, at midnight. -/
theorem gmToTime_midnight (time : Nat) (tm : ExtendedTime)
    (hyear : tm.year = (timeToGm time).year) (hmon : tm.mon = (timeToGm time).mon)
    (hmday : tm.mday = (timeToGm time).mday) (hmidnight : tm.hour = 0 ∧ tm.min = 0 ∧ tm.sec = 0) :
    gmToTime tm = time - time % 86400 := by
  have htime := gmToTime_parts (timeToGm time)
  have hrange := timeToGm_inRange time
  have hday : dayNumber tm = dayNumber (timeToGm time) := by
    rw [dayNumber, dayNumber, hyear, hmon, hmday]
  obtain ⟨hhour, hmin, hsec⟩ := hmidnight
  have hhour' := hrange.hour
  have hmin' := hrange.min
  have hsec' := hrange.sec
  rw [gmToTime_timeToGm] at htime
  rw [gmToTime_parts, hday, hhour, hmin, hsec]
  omega

/-- What the short forms write is read back: all but the microseconds, and the beginning of
the day. -/
theorem set_shortForms (t : Time) (strict : Bool) (husec : t.tvUsec < 1000000)
    (hyear : t.getGmTime.year + 1900 ≤ 9999) :
    (∃ out, t.gmFt = some out ∧ setFt out strict = .ok { t with tvUsec := 0 }) ∧
      ∃ out, t.gmF = some out ∧
        setF out strict = .ok { tvSec := t.tvSec - t.tvSec % 86400, tvUsec := 0 } := by
  have ht : t.getGmTime.Printable := getGmTime_printable husec hyear
  constructor
  · refine ⟨_, format_FT _, ?_⟩
    rw [setFt, Time.set, ← formatOf_dateClock, fromStr_dateClock ht]
    show Except.ok (Time.mk (gmToTime (timeToGm t.tvSec)) 0) = _
    rw [gmToTime_timeToGm]
  · refine ⟨_, format_F _, ?_⟩
    rw [setF, Time.set, ← formatOf_dateItems, fromStr_dateItems ht]
    have hday : gmToTime { ofTime 0 0 with
        year := t.getGmTime.year, mon := t.getGmTime.mon, mday := t.getGmTime.mday } =
          t.tvSec - t.tvSec % 86400 :=
      gmToTime_midnight t.tvSec _ rfl rfl rfl ⟨rfl, rfl, rfl⟩
    show Except.ok (Time.mk (gmToTime _) 0) = _
    rw [hday]

/-- The 9th of September 2001. -/
theorem set_shortForms_day :
    (∃ out, gmFt ⟨1000000000, 5⟩ = some out ∧ setFt out true = .ok ⟨1000000000, 0⟩) ∧
      ∃ out, gmF ⟨1000000000, 5⟩ = some out ∧
        setF out true = .ok ⟨1000000000 - 1000000000 % 86400, 0⟩ :=
  set_shortForms ⟨1000000000, 5⟩ true (by decide) (by decide +kernel)

end Time
end LiteMQ.Gears
