import Mathlib.Algebra.Ring.Nat
import Mathlib.Order.Monotone.Basic

/-!
# Calendars

A calendar counts days from the first of January of its first year on, with twelve
months of the usual lengths and a rule that says which years have a leap day.

A day is the number of one date only (`dayNumber_injective`).  Two calendars whose
rules first differ in one year, where only the first of them has a leap day, agree on
the dates before that day and on no date behind it (`DropsFirst.dayNumber_eq_iff`).
-/

/-- The first year, and the leap years. -/
structure Calendar where
  epoch : Nat
  leap : Nat → Bool

namespace Calendar

/-- A date; months are counted from 0, days from 1. -/
structure Date where
  year : Nat
  month : Nat
  day : Nat
  deriving DecidableEq, Repr

def monthLength (leap : Bool) (month : Nat) : Nat :=
  [31, if leap then 29 else 28, 31, 30, 31, 30, 31, 31, 30, 31, 30, 31].getD month 0

def daysBeforeMonth (leap : Bool) : Nat → Nat
  | 0 => 0
  | month + 1 => daysBeforeMonth leap month + monthLength leap month

def yearLength (leap : Bool) : Nat := if leap then 366 else 365

variable (c : Calendar)

/-- The days of the first `n` years. -/
def daysOfYears : Nat → Nat
  | 0 => 0
  | n + 1 => daysOfYears n + yearLength (c.leap (c.epoch + n))

/-- A date of the calendar. -/
structure Date.Valid (d : Date) : Prop where
  year : c.epoch ≤ d.year
  month : d.month < 12
  day_pos : 1 ≤ d.day
  day : d.day ≤ monthLength (c.leap d.year) d.month

/-- The days of the year before the date. -/
def dayOfYear (d : Date) : Nat := daysBeforeMonth (c.leap d.year) d.month + (d.day - 1)

/-- The days of the calendar before the date. -/
def dayNumber (d : Date) : Nat := c.daysOfYears (d.year - c.epoch) + c.dayOfYear d

/-! ## One date for each day -/

theorem daysBeforeMonth_monotone (leap : Bool) : Monotone (daysBeforeMonth leap) :=
  monotone_nat_of_le_succ fun _ => Nat.le_add_right _ _

theorem daysOfYears_monotone : Monotone c.daysOfYears :=
  monotone_nat_of_le_succ fun _ => Nat.le_add_right _ _

theorem daysBeforeMonth_twelve (leap : Bool) : daysBeforeMonth leap 12 = yearLength leap := by
  cases leap <;> rfl

/-- The pieces between the values of a monotone function do not overlap. -/
theorem piece_unique {f : Nat → Nat} (hf : Monotone f) {n k k' : Nat} (hk : f k ≤ n)
    (hk_lt : n < f (k + 1)) (hk' : f k' ≤ n) (hk'_lt : n < f (k' + 1)) : k = k' := by
  rcases Nat.lt_trichotomy k k' with hlt | heq | hgt
  · have hle : f (k + 1) ≤ f k' := hf hlt
    omega
  · exact heq
  · have hle : f (k' + 1) ≤ f k := hf hgt
    omega

variable {c} {d d' : Date}

/-- The day lies in its month. -/
theorem Date.Valid.dayOfYear_lt_month (h : d.Valid c) :
    c.dayOfYear d < daysBeforeMonth (c.leap d.year) (d.month + 1) := by
  have hpos := h.day_pos
  have hday := h.day
  rw [dayOfYear, daysBeforeMonth]
  omega

theorem Date.Valid.dayOfYear_lt (h : d.Valid c) :
    c.dayOfYear d < yearLength (c.leap d.year) := by
  rw [← daysBeforeMonth_twelve]
  exact lt_of_lt_of_le h.dayOfYear_lt_month (daysBeforeMonth_monotone _ h.month)

/-- The day lies in its year. -/
theorem Date.Valid.dayNumber_lt (h : d.Valid c) :
    c.dayNumber d < c.daysOfYears (d.year - c.epoch + 1) := by
  have hlt := h.dayOfYear_lt
  rw [daysOfYears, Nat.add_sub_cancel' h.year, dayNumber]
  exact Nat.add_lt_add_left hlt _

/-- No two dates have the same number. -/
theorem dayNumber_injective (h : d.Valid c) (h' : d'.Valid c)
    (hsame : c.dayNumber d = c.dayNumber d') : d = d' := by
  -- the number gives the year, then the month in it, then the day
  have hyears : d.year - c.epoch = d'.year - c.epoch := by
    refine piece_unique (n := c.dayNumber d) c.daysOfYears_monotone (Nat.le_add_right _ _)
      h.dayNumber_lt ?_ ?_
    · rw [hsame]
      exact Nat.le_add_right _ _
    · rw [hsame]
      exact h'.dayNumber_lt
  have hyear : d.year = d'.year := by
    have hle := h.year
    have hle' := h'.year
    omega
  have hdays : c.dayOfYear d = c.dayOfYear d' := by
    rw [dayNumber, dayNumber, hyears] at hsame
    exact Nat.add_left_cancel hsame
  have hmonth : d.month = d'.month := by
    have hlt := h.dayOfYear_lt_month
    have hlt' := h'.dayOfYear_lt_month
    rw [hyear] at hlt
    refine piece_unique (daysBeforeMonth_monotone (c.leap d'.year)) ?_ hlt ?_ ?_
    · rw [dayOfYear, hyear]
      exact Nat.le_add_right _ _
    · rw [hdays]
      exact Nat.le_add_right _ _
    · rw [hdays]
      exact hlt'
  have hday : d.day = d'.day := by
    have hpos := h.day_pos
    have hpos' := h'.day_pos
    rw [dayOfYear, dayOfYear, hyear, hmonth] at hdays
    omega
  cases d
  cases d'
  simp_all

/-! ## Two calendars -/

/-- `c'` has only leap days that `c` has, and the first that it lacks is in `year`. -/
structure DropsFirst (c c' : Calendar) (year : Nat) : Prop where
  epoch : c'.epoch = c.epoch
  epoch_le : c.epoch ≤ year
  leap : ∀ y, c.epoch ≤ y → c'.leap y = true → c.leap y = true
  before : ∀ y, c.epoch ≤ y → y < year → c'.leap y = c.leap y
  leap_at : c.leap year = true
  not_leap_at : c'.leap year = false

/-- The date is before the first of March of the year. -/
def Date.BeforeMarch (d : Date) (year : Nat) : Prop :=
  d.year < year ∨ d.year = year ∧ d.month < 2

instance (d : Date) (year : Nat) : Decidable (d.BeforeMarch year) :=
  inferInstanceAs (Decidable (_ ∨ _))

theorem monthLength_le : ∀ month < 12, monthLength false month ≤ monthLength true month := by
  decide

/-- The leap day makes a difference from March on. -/
theorem daysBeforeMonth_leap : ∀ month < 12,
    daysBeforeMonth true month = daysBeforeMonth false month + if month < 2 then 0 else 1 := by
  decide

namespace DropsFirst

variable {c c' : Calendar} {year : Nat} (h : DropsFirst c c' year)

include h

theorem daysOfYears_eq {n : Nat} (hn : c.epoch + n ≤ year) :
    c'.daysOfYears n = c.daysOfYears n := by
  induction n with
  | zero => rfl
  | succ n ih =>
      rw [daysOfYears, daysOfYears, ih (by omega), h.epoch, h.before _ (by omega) (by omega)]

theorem yearLength_le {y : Nat} (hy : c.epoch ≤ y) :
    yearLength (c'.leap y) ≤ yearLength (c.leap y) := by
  cases hleap : c'.leap y with
  | true => rw [h.leap y hy hleap]
  | false => cases c.leap y <;> decide

theorem daysOfYears_lt {n : Nat} (hn : year < c.epoch + n) :
    c'.daysOfYears n < c.daysOfYears n := by
  induction n with
  | zero =>
      have hle := h.epoch_le
      omega
  | succ n ih =>
      rw [daysOfYears, daysOfYears, h.epoch]
      by_cases hlater : year < c.epoch + n
      · exact Nat.add_lt_add_of_lt_of_le (ih hlater) (h.yearLength_le (Nat.le_add_right _ _))
      · obtain rfl : year = c.epoch + n := by omega
        rw [h.daysOfYears_eq (Nat.le_refl _), h.leap_at, h.not_leap_at]
        exact Nat.add_lt_add_left (by decide) _

/-- A date of `c'` is one of `c`. -/
theorem valid {d : Date} (hd : d.Valid c') : d.Valid c := by
  have hyear : c.epoch ≤ d.year := h.epoch ▸ hd.year
  refine ⟨hyear, hd.month, hd.day_pos, ?_⟩
  have hday := hd.day
  cases hleap : c'.leap d.year with
  | true =>
      rw [h.leap _ hyear hleap]
      rwa [hleap] at hday
  | false =>
      rw [hleap] at hday
      cases c.leap d.year with
      | true => exact hday.trans (monthLength_le _ hd.month)
      | false => exact hday

theorem dayOfYear_le {d : Date} (hd : d.Valid c') : c'.dayOfYear d ≤ c.dayOfYear d := by
  have hmonth := daysBeforeMonth_leap d.month hd.month
  unfold dayOfYear
  cases hleap : c'.leap d.year with
  | true => rw [h.leap _ (h.valid hd).year hleap]
  | false =>
      cases c.leap d.year with
      | true => omega
      | false => exact Nat.le_refl _

theorem dayOfYear_eq {d : Date} (hd : d.Valid c') (hbefore : d.BeforeMarch year) :
    c'.dayOfYear d = c.dayOfYear d := by
  unfold dayOfYear
  rcases hbefore with hlt | ⟨rfl, hmonth⟩
  · rw [h.before _ (h.valid hd).year hlt]
  · rw [h.leap_at, h.not_leap_at, daysBeforeMonth_leap d.month hd.month, if_pos hmonth,
      Nat.add_zero]

/-- The calendars number a date of both alike exactly when it is before March of the
year in which they differ. -/
theorem dayNumber_eq_iff {d : Date} (hd : d.Valid c') :
    c.dayNumber d = c'.dayNumber d ↔ d.BeforeMarch year := by
  have hyear := (h.valid hd).year
  have hle := h.dayOfYear_le hd
  have hmonth := daysBeforeMonth_leap d.month hd.month
  unfold dayNumber Date.BeforeMarch
  rw [h.epoch]
  rcases Nat.lt_trichotomy d.year year with hlt | heq | hgt
  · rw [h.daysOfYears_eq (by omega), dayOfYear, dayOfYear, h.before _ hyear hlt]
    exact ⟨fun _ => Or.inl hlt, fun _ => rfl⟩
  · rw [h.daysOfYears_eq (by omega), dayOfYear, dayOfYear, heq, h.leap_at, h.not_leap_at, hmonth]
    split_ifs <;> omega
  · -- the leap day is behind, and nothing makes up for it
    have hdays := h.daysOfYears_lt (n := d.year - c.epoch) (by omega)
    constructor
    · intro hsame
      omega
    · omega

/-- The day that `c'` lacks. -/
theorem dayNumber_leapDay :
    c.dayNumber ⟨year, 1, 29⟩ = c.daysOfYears (year - c.epoch) + (31 + 28) := by
  rw [dayNumber, dayOfYear, h.leap_at]
  rfl

/-- In the year in which they differ, the days before the leap day are those of January
and the first 28 of February. -/
theorem dayOfYear_lt_leapDay {d : Date} (hd : d.Valid c) (hyear : d.year = year) :
    c.dayOfYear d < 31 + 28 ↔ d.month < 2 ∧ d.day ≤ monthLength false d.month := by
  have hpos := hd.day_pos
  have hday := hd.day
  rw [hyear, h.leap_at] at hday
  rw [dayOfYear, hyear, h.leap_at]
  constructor
  · intro hlt
    have hmonth : d.month < 2 := by
      by_contra hge
      -- March begins on the 60th day
      have hmarch := daysBeforeMonth_monotone true (Nat.le_of_not_lt hge)
      have hsixty : daysBeforeMonth true 2 = 60 := rfl
      omega
    refine ⟨hmonth, ?_⟩
    obtain hzero | hone : d.month = 0 ∨ d.month = 1 := by omega
    · rw [hzero] at hday ⊢
      exact hday
    · rw [hone] at hlt ⊢
      change 31 + (d.day - 1) < 31 + 28 at hlt
      show d.day ≤ 28
      omega
  · rintro ⟨hmonth, hle⟩
    obtain hzero | hone : d.month = 0 ∨ d.month = 1 := by omega
    · rw [hzero] at hle ⊢
      change d.day ≤ 31 at hle
      show 0 + (d.day - 1) < _
      omega
    · rw [hone] at hle ⊢
      change d.day ≤ 28 at hle
      show 31 + (d.day - 1) < _
      omega

/-- The dates of `c` before the leap day are dates of `c'` before March. -/
theorem valid_of_dayNumber_lt {d : Date} (hd : d.Valid c)
    (hlt : c.dayNumber d < c.dayNumber ⟨year, 1, 29⟩) : d.Valid c' ∧ d.BeforeMarch year := by
  have hyear : d.year ≤ year := by
    by_contra hgt
    -- a later year begins behind the whole year of the leap day
    have hleap : c.dayNumber ⟨year, 1, 29⟩ ≤ c.daysOfYears (year - c.epoch + 1) := by
      rw [h.dayNumber_leapDay, daysOfYears, Nat.add_sub_cancel' h.epoch_le, h.leap_at]
      exact Nat.add_le_add_left (by decide) _
    have hmono : c.daysOfYears (year - c.epoch + 1) ≤ c.daysOfYears (d.year - c.epoch) := by
      have hle := h.epoch_le
      exact c.daysOfYears_monotone (by omega)
    have hge : c.daysOfYears (d.year - c.epoch) ≤ c.dayNumber d := Nat.le_add_right _ _
    omega
  rcases Nat.lt_or_eq_of_le hyear with hbefore | hsame
  · refine ⟨⟨h.epoch ▸ hd.year, hd.month, hd.day_pos, ?_⟩, Or.inl hbefore⟩
    rw [h.before _ hd.year hbefore]
    exact hd.day
  · have hdays : c.dayOfYear d < 31 + 28 := by
      rw [h.dayNumber_leapDay, dayNumber, hsame] at hlt
      omega
    obtain ⟨hmonth, hday⟩ := (h.dayOfYear_lt_leapDay hd hsame).mp hdays
    refine ⟨⟨h.epoch ▸ hd.year, hd.month, hd.day_pos, ?_⟩, Or.inr ⟨hsame, hmonth⟩⟩
    rw [hsame, h.not_leap_at]
    exact hday

/-- And those before March are before the leap day. -/
theorem dayNumber_lt_of_beforeMarch {d : Date} (hd : d.Valid c') (hbefore : d.BeforeMarch year) :
    c.dayNumber d < c.dayNumber ⟨year, 1, 29⟩ := by
  have hvalid := h.valid hd
  rw [h.dayNumber_leapDay]
  rcases hbefore with hlt | ⟨hsame, hmonth⟩
  · have hmono : c.daysOfYears (d.year - c.epoch + 1) ≤ c.daysOfYears (year - c.epoch) := by
      have hle := hvalid.year
      exact c.daysOfYears_monotone (by omega)
    have hnumber := hvalid.dayNumber_lt
    omega
  · have hday := hd.day
    rw [hsame, h.not_leap_at] at hday
    have hdays := (h.dayOfYear_lt_leapDay hvalid hsame).mpr ⟨hmonth, hday⟩
    rw [dayNumber, hsame]
    exact Nat.add_lt_add_left hdays _

end DropsFirst
end Calendar
