import LiteMQ.Foundation.IntegerType
import Mathlib.Tactic.Ring

/-!
# Arithmetic on `Gears::Time`

A time is a number of seconds, which may be negative, and less than 1000000 microseconds
on top of them.  The operators are exact wherever `microseconds()` has room for what goes
in and what comes out, with one exception (`arithmetic_exact_iff`): `Helper::abs` has no
value for the least `int`, so nothing is multiplied or divided by it.
-/

namespace LiteMQ.Gears

/-- `timeval` -/
structure TimeVal where
  tvSec : Int
  tvUsec : Int
  deriving DecidableEq, Repr

open IntegerType (int32 int64)

namespace TimeVal

/-- `USEC_MAX` -/
def usecMax : Int := 1000000

/-- `operator -(tv)` -/
def neg (tv : TimeVal) : Option TimeVal :=
  if tv.tvUsec ≠ 0 then do
    let sec ← int64.checked (-tv.tvSec)
    let sec ← int64.checked (sec - 1)
    let usec ← int64.checked (usecMax - tv.tvUsec)
    some ⟨sec, usec⟩
  else do
    let sec ← int64.checked (-tv.tvSec)
    some ⟨sec, 0⟩

/-- `abs` -/
def abs (tv : TimeVal) : Option TimeVal := if tv.tvSec < 0 then neg tv else some tv

/-- `operator +(tv1, tv2)` -/
def add (tv1 tv2 : TimeVal) : Option TimeVal := do
  let usec ← int64.checked (tv1.tvUsec + tv2.tvUsec)
  if usec ≥ usecMax then
    let sec ← int64.checked (tv1.tvSec + tv2.tvSec)
    let sec ← int64.checked (sec + 1)
    let usec ← int64.checked (usec - usecMax)
    some ⟨sec, usec⟩
  else
    let sec ← int64.checked (tv1.tvSec + tv2.tvSec)
    some ⟨sec, usec⟩

/-- `operator -(tv1, tv2)` -/
def sub (tv1 tv2 : TimeVal) : Option TimeVal :=
  if tv1.tvUsec < tv2.tvUsec then do
    let sec ← int64.checked (tv1.tvSec - tv2.tvSec)
    let sec ← int64.checked (sec - 1)
    let usec ← int64.checked (usecMax + tv1.tvUsec)
    let usec ← int64.checked (usec - tv2.tvUsec)
    some ⟨sec, usec⟩
  else do
    let sec ← int64.checked (tv1.tvSec - tv2.tvSec)
    let usec ← int64.checked (tv1.tvUsec - tv2.tvUsec)
    some ⟨sec, usec⟩

namespace Helper

/-- `Helper::abs` -/
def abs (value : Int) : Option Int := if value < 0 then int32.checked (-value) else some value

/-- `Helper::mul` -/
def mul (tv : TimeVal) (multiplier : Int) : Option TimeVal := do
  let sec ← int64.checked (tv.tvSec * multiplier)
  let usec ← int64.checked (tv.tvUsec * multiplier)
  let sec ← int64.checked (sec + usec.tdiv usecMax)
  some ⟨sec, usec.tmod usecMax⟩

/-- `/` on `time_t`, which has no value for the divisor 0 -/
def quotient (n divisor : Int) : Option Int :=
  if divisor = 0 then none else int64.checked (n.tdiv divisor)

/-- `Helper::div` -/
def div (tv : TimeVal) (divisor : Int) : Option TimeVal := do
  let sec ← quotient tv.tvSec divisor
  let whole ← int64.checked (sec * divisor)
  let left ← int64.checked (tv.tvSec - whole)
  let left ← int64.checked (left * usecMax)
  let left ← int64.checked (left + tv.tvUsec)
  let usec ← quotient left divisor
  some ⟨sec, usec⟩

end Helper

/-- `operator *` -/
def mul (tv : TimeVal) (multiplier : Int) : Option TimeVal := do
  let tv' ← abs tv
  let multiplier' ← Helper.abs multiplier
  let product ← Helper.mul tv' multiplier'
  if (tv.tvSec < 0 : Bool) = (multiplier < 0 : Bool) then some product else neg product

/-- `operator /` -/
def div (tv : TimeVal) (divisor : Int) : Option TimeVal := do
  let tv' ← abs tv
  let divisor' ← Helper.abs divisor
  let quotient ← Helper.div tv' divisor'
  if (tv.tvSec < 0 : Bool) = (divisor < 0 : Bool) then some quotient else neg quotient

/-- `microseconds` -/
def microseconds (tv : TimeVal) : Option Int := do
  let product ← int64.checked (tv.tvSec * usecMax)
  int64.checked (product + tv.tvUsec)

/-- `operator ==` -/
def eq (tv1 tv2 : TimeVal) : Bool := tv1.tvSec = tv2.tvSec ∧ tv1.tvUsec = tv2.tvUsec

/-- `operator <` -/
def lt (tv1 tv2 : TimeVal) : Bool :=
  tv1.tvSec < tv2.tvSec ∨ tv1.tvSec = tv2.tvSec ∧ tv1.tvUsec < tv2.tvUsec

/-- The fields of a time. -/
structure Valid (tv : TimeVal) : Prop where
  sec : int64.Fits tv.tvSec
  usec_nonneg : 0 ≤ tv.tvUsec
  usec : tv.tvUsec < 1000000

/-- The microseconds of a time, as a number without bounds. -/
def total (tv : TimeVal) : Int := tv.tvSec * 1000000 + tv.tvUsec

/-- The times for which `microseconds()` does not overflow. -/
def MicrosecondsFit (n : Int) : Prop := -9223372036854000000 ≤ n ∧ n ≤ 9223372036854775807

instance (n : Int) : Decidable (MicrosecondsFit n) := inferInstanceAs (Decidable (_ ∧ _))

/-- The seconds of so many microseconds are 64 bits. -/
def SecondsFit (n : Int) : Prop := int64.Fits (n / 1000000)

instance (n : Int) : Decidable (SecondsFit n) := inferInstanceAs (Decidable (int64.Fits _))

/-- The operation gives a time with the expected microseconds. -/
def Exact (result : Option TimeVal) (expected : Option Int) : Prop :=
  ∃ tv n, result = some tv ∧ tv.Valid ∧ expected = some n ∧ tv.microseconds = some n

/-! ## Microseconds -/

theorem valid_mk {sec usec : Int} (hsec : int64.Fits sec) (hnonneg : 0 ≤ usec)
    (husec : usec < 1000000) : Valid ⟨sec, usec⟩ := ⟨hsec, hnonneg, husec⟩

theorem usecMax_eq : usecMax = 1000000 := rfl

theorem total_nonneg {tv : TimeVal} (h : tv.Valid) (hsec : 0 ≤ tv.tvSec) : 0 ≤ tv.total := by
  have hnonneg := h.usec_nonneg
  unfold total
  omega

theorem microseconds_eq {tv : TimeVal} (h : tv.Valid) (hfit : MicrosecondsFit tv.total) :
    tv.microseconds = some tv.total := by
  have husec := h.usec
  have hnonneg := h.usec_nonneg
  have hproduct : int64.Fits (tv.tvSec * usecMax) := by
    rw [IntegerType.fits_int64, usecMax_eq]
    unfold MicrosecondsFit total at hfit
    omega
  have hsum : int64.Fits (tv.tvSec * usecMax + tv.tvUsec) := by
    rw [IntegerType.fits_int64, usecMax_eq]
    unfold MicrosecondsFit total at hfit
    omega
  simp only [microseconds, IntegerType.checked_of_fits hproduct, Option.bind_eq_bind,
    Option.bind_some, IntegerType.checked_of_fits hsum]
  rfl

theorem microseconds_eq_some {tv : TimeVal} (h : tv.Valid) {n : Int}
    (hsome : tv.microseconds = some n) : MicrosecondsFit tv.total ∧ tv.total = n := by
  have husec := h.usec
  have hnonneg := h.usec_nonneg
  by_cases hproduct : int64.Fits (tv.tvSec * usecMax)
  · by_cases hsum : int64.Fits (tv.tvSec * usecMax + tv.tvUsec)
    · simp only [microseconds, IntegerType.checked_of_fits hproduct, Option.bind_eq_bind,
        Option.bind_some, IntegerType.checked_of_fits hsum] at hsome
      rw [IntegerType.fits_int64, usecMax_eq] at hproduct hsum
      refine ⟨?_, Option.some.inj hsome⟩
      unfold MicrosecondsFit total
      omega
    · simp only [microseconds, IntegerType.checked_of_fits hproduct, Option.bind_eq_bind,
        Option.bind_some, IntegerType.checked_of_not_fits hsum] at hsome
      cases hsome
  · simp only [microseconds, IntegerType.checked_of_not_fits hproduct, Option.bind_eq_bind,
      Option.bind_none] at hsome
    cases hsome

/-- The fields of a time whose microseconds fit. -/
theorem field_bounds {tv : TimeVal} (h : tv.Valid) (hfit : MicrosecondsFit tv.total) :
    -9223372036854 ≤ tv.tvSec ∧ tv.tvSec ≤ 9223372036854 ∧
      0 ≤ tv.tvUsec ∧ tv.tvUsec < 1000000 := by
  have husec := h.usec
  have hnonneg := h.usec_nonneg
  unfold MicrosecondsFit total at hfit
  omega

/-! ## The operators -/

/-- Opposite times. -/
theorem neg_spec {tv : TimeVal} (h : tv.Valid) (hfit : MicrosecondsFit tv.total) :
    ∃ r, neg tv = some r ∧ r.Valid ∧ r.total = -tv.total := by
  obtain ⟨hlow, hhigh, hnonneg, husec⟩ := field_bounds h hfit
  have hsec : int64.Fits (-tv.tvSec) := IntegerType.fits_int64.mpr (by omega)
  by_cases hzero : tv.tvUsec = 0
  · refine ⟨⟨-tv.tvSec, 0⟩, ?_, valid_mk hsec le_rfl (by decide), ?_⟩
    · rw [neg, if_neg (by simpa using hzero), IntegerType.checked_of_fits hsec]
      rfl
    · simp only [total]
      omega
  · have hborrow : int64.Fits (-tv.tvSec - 1) := IntegerType.fits_int64.mpr (by omega)
    have hrest : int64.Fits (usecMax - tv.tvUsec) := by
      rw [IntegerType.fits_int64, usecMax_eq]
      omega
    refine ⟨⟨-tv.tvSec - 1, usecMax - tv.tvUsec⟩, ?_, valid_mk hborrow ?_ ?_, ?_⟩
    · simp only [neg, if_pos hzero, IntegerType.checked_of_fits hsec, Option.bind_eq_bind,
        Option.bind_some, IntegerType.checked_of_fits hborrow, IntegerType.checked_of_fits hrest]
    · rw [usecMax_eq]
      omega
    · rw [usecMax_eq]
      omega
    · simp only [total, usecMax]
      omega

/-- The sign of a time is the sign of its seconds. -/
theorem abs_spec {tv : TimeVal} (h : tv.Valid) (hfit : MicrosecondsFit tv.total) :
    ∃ r, abs tv = some r ∧ r.Valid ∧ 0 ≤ r.tvSec ∧
      r.total = if tv.tvSec < 0 then -tv.total else tv.total := by
  have husec := h.usec
  have hnonneg := h.usec_nonneg
  by_cases hsign : tv.tvSec < 0
  · obtain ⟨r, hneg, hvalid, htotal⟩ := neg_spec h hfit
    have husec' := hvalid.usec
    refine ⟨r, by rw [abs, if_pos hsign, hneg], hvalid, ?_, by rw [if_pos hsign, htotal]⟩
    unfold total at htotal
    omega
  · exact ⟨tv, if_neg hsign, h, by omega, by rw [if_neg hsign]⟩

theorem add_spec {a b : TimeVal} (ha : a.Valid) (hb : b.Valid) (hfit : MicrosecondsFit a.total)
    (hfit' : MicrosecondsFit b.total) :
    ∃ r, add a b = some r ∧ r.Valid ∧ r.total = a.total + b.total := by
  obtain ⟨hlow, hhigh, hnonneg, husec⟩ := field_bounds ha hfit
  obtain ⟨hlow', hhigh', hnonneg', husec'⟩ := field_bounds hb hfit'
  have hsum : int64.Fits (a.tvUsec + b.tvUsec) := IntegerType.fits_int64.mpr (by omega)
  have hsec : int64.Fits (a.tvSec + b.tvSec) := IntegerType.fits_int64.mpr (by omega)
  by_cases hcarry : a.tvUsec + b.tvUsec ≥ usecMax
  · -- a second is carried
    have hnext : int64.Fits (a.tvSec + b.tvSec + 1) := IntegerType.fits_int64.mpr (by omega)
    have hrest : int64.Fits (a.tvUsec + b.tvUsec - usecMax) := by
      rw [IntegerType.fits_int64, usecMax_eq]
      omega
    have hge : 1000000 ≤ a.tvUsec + b.tvUsec := hcarry
    refine ⟨⟨a.tvSec + b.tvSec + 1, a.tvUsec + b.tvUsec - usecMax⟩, ?_, valid_mk hnext ?_ ?_, ?_⟩
    · simp only [add, IntegerType.checked_of_fits hsum, Option.bind_eq_bind, Option.bind_some,
        if_pos hcarry, IntegerType.checked_of_fits hsec, IntegerType.checked_of_fits hnext,
        IntegerType.checked_of_fits hrest]
    · rw [usecMax_eq]
      omega
    · rw [usecMax_eq]
      omega
    · simp only [total, usecMax]
      omega
  · have hlt : ¬1000000 ≤ a.tvUsec + b.tvUsec := hcarry
    refine ⟨⟨a.tvSec + b.tvSec, a.tvUsec + b.tvUsec⟩, ?_, valid_mk hsec (by omega) (by omega), ?_⟩
    · simp only [add, IntegerType.checked_of_fits hsum, Option.bind_eq_bind, Option.bind_some,
        if_neg hcarry, IntegerType.checked_of_fits hsec]
    · simp only [total]
      omega

theorem sub_spec {a b : TimeVal} (ha : a.Valid) (hb : b.Valid) (hfit : MicrosecondsFit a.total)
    (hfit' : MicrosecondsFit b.total) :
    ∃ r, sub a b = some r ∧ r.Valid ∧ r.total = a.total - b.total := by
  obtain ⟨hlow, hhigh, hnonneg, husec⟩ := field_bounds ha hfit
  obtain ⟨hlow', hhigh', hnonneg', husec'⟩ := field_bounds hb hfit'
  have hsec : int64.Fits (a.tvSec - b.tvSec) := IntegerType.fits_int64.mpr (by omega)
  by_cases hborrow : a.tvUsec < b.tvUsec
  · -- a second is borrowed
    have hbefore : int64.Fits (a.tvSec - b.tvSec - 1) := IntegerType.fits_int64.mpr (by omega)
    have hsum : int64.Fits (usecMax + a.tvUsec) := by
      rw [IntegerType.fits_int64, usecMax_eq]
      omega
    have hrest : int64.Fits (usecMax + a.tvUsec - b.tvUsec) := by
      rw [IntegerType.fits_int64, usecMax_eq]
      omega
    refine ⟨⟨a.tvSec - b.tvSec - 1, usecMax + a.tvUsec - b.tvUsec⟩, ?_, valid_mk hbefore ?_ ?_, ?_⟩
    · simp only [sub, if_pos hborrow, IntegerType.checked_of_fits hsec, Option.bind_eq_bind,
        Option.bind_some, IntegerType.checked_of_fits hbefore, IntegerType.checked_of_fits hsum,
        IntegerType.checked_of_fits hrest]
    · rw [usecMax_eq]
      omega
    · rw [usecMax_eq]
      omega
    · simp only [total, usecMax]
      omega
  · have hrest : int64.Fits (a.tvUsec - b.tvUsec) := IntegerType.fits_int64.mpr (by omega)
    refine ⟨⟨a.tvSec - b.tvSec, a.tvUsec - b.tvUsec⟩, ?_, valid_mk hsec (by omega) (by omega), ?_⟩
    · simp only [sub, if_neg hborrow, IntegerType.checked_of_fits hsec, Option.bind_eq_bind,
        Option.bind_some, IntegerType.checked_of_fits hrest]
    · simp only [total]
      omega

/-! ## Products and quotients -/

/-- `Helper::abs` has a value but for the least `int`. -/
theorem Helper.abs_spec {n : Int} (hn : int32.Fits n) (hmin : n ≠ -2147483648) :
    ∃ n', Helper.abs n = some n' ∧ 0 ≤ n' ∧ n' ≤ 2147483647 ∧ n' = if n < 0 then -n else n := by
  obtain ⟨hlow, hhigh⟩ := IntegerType.fits_int32.mp hn
  unfold Helper.abs
  split
  · have hfits : int32.Fits (-n) := IntegerType.fits_int32.mpr (by omega)
    exact ⟨-n, IntegerType.checked_of_fits hfits, by omega, by omega, rfl⟩
  · exact ⟨n, rfl, by omega, by omega, rfl⟩

theorem Helper.mul_spec {tv : TimeVal} (h : tv.Valid) (hsec : 0 ≤ tv.tvSec) {m : Int}
    (hm : 0 ≤ m) (hm' : m ≤ 2147483647) (hfit : MicrosecondsFit (tv.total * m)) :
    ∃ r, Helper.mul tv m = some r ∧ r.Valid ∧ r.total = tv.total * m := by
  have hproduct : tv.total * m = tv.tvSec * m * 1000000 + tv.tvUsec * m := by
    unfold total
    ring
  have hsecs : 0 ≤ tv.tvSec * m := Int.mul_nonneg hsec hm
  have husecs : 0 ≤ tv.tvUsec * m := Int.mul_nonneg h.usec_nonneg hm
  have husecs_le : tv.tvUsec * m ≤ 999999 * 2147483647 :=
    Int.mul_le_mul (Int.le_of_lt_add_one h.usec) hm' hm (by decide)
  -- from here on the products are numbers
  rw [hproduct] at hfit ⊢
  revert hfit hsecs husecs husecs_le
  unfold Helper.mul
  generalize tv.tvSec * m = secs
  generalize tv.tvUsec * m = usecs
  intro hfit hsecs husecs husecs_le
  have hlow : int64.Fits secs := by
    rw [IntegerType.fits_int64]
    unfold MicrosecondsFit at hfit
    omega
  have husecs_fit : int64.Fits usecs := IntegerType.fits_int64.mpr (by omega)
  have hdiv : usecs.tdiv usecMax = usecs / 1000000 := Int.tdiv_eq_ediv_of_nonneg husecs
  have hmod : usecs.tmod usecMax = usecs % 1000000 := Int.tmod_eq_emod_of_nonneg husecs
  have hsum : int64.Fits (secs + usecs / 1000000) := by
    rw [IntegerType.fits_int64]
    unfold MicrosecondsFit at hfit
    omega
  refine ⟨⟨secs + usecs / 1000000, usecs % 1000000⟩, ?_, valid_mk hsum (by omega) (by omega), ?_⟩
  · simp only [IntegerType.checked_of_fits hlow, IntegerType.checked_of_fits husecs_fit,
      Option.bind_eq_bind, Option.bind_some, hdiv, hmod, IntegerType.checked_of_fits hsum]
  · simp only [total]
    omega

theorem Helper.quotient_eq {n d : Int} (hn : 0 ≤ n) (hd : 0 < d) (hfit : int64.Fits n) :
    Helper.quotient n d = some (n / d) := by
  have hle : n / d ≤ n := Int.ediv_le_self d hn
  have hnonneg : 0 ≤ n / d := Int.ediv_nonneg hn (by omega)
  have hquotient : int64.Fits (n / d) := by
    rw [IntegerType.fits_int64] at hfit ⊢
    omega
  rw [Helper.quotient, if_neg (by omega), Int.tdiv_eq_ediv_of_nonneg hn,
    IntegerType.checked_of_fits hquotient]

theorem Helper.div_spec {tv : TimeVal} (h : tv.Valid) (hsec : 0 ≤ tv.tvSec)
    (hfit : MicrosecondsFit tv.total) {d : Int} (hd : 0 < d) (hd' : d ≤ 2147483647) :
    ∃ r, Helper.div tv d = some r ∧ r.Valid ∧ r.total = tv.total / d := by
  obtain ⟨hlow, hhigh, hnonneg, husec⟩ := field_bounds h hfit
  have hwhole : tv.tvSec / d * d + tv.tvSec % d = tv.tvSec := Int.ediv_mul_add_emod _ _
  have hmod : 0 ≤ tv.tvSec % d := Int.emod_nonneg _ (by omega)
  have hmod_lt : tv.tvSec % d < d := Int.emod_lt_of_pos _ hd
  have hfits : int64.Fits (tv.tvSec / d * d) := IntegerType.fits_int64.mpr (by omega)
  have hleft : tv.tvSec - tv.tvSec / d * d = tv.tvSec % d := by omega
  have hleft_fits : int64.Fits (tv.tvSec % d) := IntegerType.fits_int64.mpr (by omega)
  have hscaled : int64.Fits (tv.tvSec % d * usecMax) := by
    rw [IntegerType.fits_int64, usecMax_eq]
    omega
  have hrest : int64.Fits (tv.tvSec % d * usecMax + tv.tvUsec) := by
    rw [IntegerType.fits_int64, usecMax_eq]
    omega
  have hrest_nonneg : 0 ≤ tv.tvSec % d * usecMax + tv.tvUsec := by
    rw [usecMax_eq]
    omega
  have husecs : (tv.tvSec % d * usecMax + tv.tvUsec) / d < 1000000 := by
    apply Int.ediv_lt_of_lt_mul hd
    rw [usecMax_eq]
    omega
  have hsecs : int64.Fits (tv.tvSec / d) := by
    have hle := Int.ediv_le_self d hsec
    have hge : 0 ≤ tv.tvSec / d := Int.ediv_nonneg hsec (by omega)
    exact IntegerType.fits_int64.mpr (by omega)
  refine ⟨⟨tv.tvSec / d, (tv.tvSec % d * usecMax + tv.tvUsec) / d⟩, ?_,
    valid_mk hsecs (Int.ediv_nonneg hrest_nonneg (by omega)) husecs, ?_⟩
  · simp only [Helper.div, Helper.quotient_eq hsec hd h.sec, Option.bind_eq_bind,
      Option.bind_some, IntegerType.checked_of_fits hfits, hleft,
      IntegerType.checked_of_fits hleft_fits, IntegerType.checked_of_fits hscaled,
      IntegerType.checked_of_fits hrest, Helper.quotient_eq hrest_nonneg hd hrest]
  · -- what is left of the seconds is divided as microseconds
    have hsplit : tv.total =
        tv.tvSec % d * usecMax + tv.tvUsec + tv.tvSec / d * 1000000 * d := by
      rw [usecMax_eq, Int.mul_right_comm]
      unfold total
      omega
    rw [hsplit, Int.add_mul_ediv_right _ _ (by omega)]
    simp only [total]
    omega

/-- The signs of the operands decide on the sign of the result. -/
theorem sameSign_iff (n m : Int) :
    ((n < 0 : Bool) = (m < 0 : Bool)) ↔ (n < 0 ↔ m < 0) := by
  rw [decide_eq_decide]

theorem mul_spec {tv : TimeVal} (h : tv.Valid) (hfit : MicrosecondsFit tv.total) {m : Int}
    (hm : int32.Fits m) (hmin : m ≠ -2147483648) (hproduct : MicrosecondsFit (tv.total * m)) :
    ∃ r, mul tv m = some r ∧ r.Valid ∧ r.total = tv.total * m := by
  obtain ⟨tv', habs, hvalid, hsec, htotal⟩ := abs_spec h hfit
  obtain ⟨m', habs', hm', hm'_le, hvalue⟩ := Helper.abs_spec hm hmin
  have hnonneg : 0 ≤ tv'.total * m' := Int.mul_nonneg (total_nonneg hvalid hsec) hm'
  -- the product of the absolute values is the product with the sign
  have hsame : tv'.total * m' =
      if (tv.tvSec < 0 : Bool) = (m < 0 : Bool) then tv.total * m else -(tv.total * m) := by
    rw [htotal, hvalue]
    by_cases hn : tv.tvSec < 0 <;> by_cases hneg : m < 0 <;> simp [hn, hneg]
  have hfit' : MicrosecondsFit (tv'.total * m') := by
    unfold MicrosecondsFit at hproduct ⊢
    split at hsame <;> omega
  obtain ⟨r, hmul, hr, hrtotal⟩ := Helper.mul_spec hvalid hsec hm' hm'_le hfit'
  simp only [mul, habs, habs', hmul, Option.bind_eq_bind, Option.bind_some]
  split
  · rename_i hsign
    rw [if_pos hsign] at hsame
    exact ⟨r, rfl, hr, hrtotal.trans hsame⟩
  · rename_i hsign
    rw [if_neg hsign] at hsame
    obtain ⟨r', hneg, hr', hrtotal'⟩ := neg_spec hr (by rwa [hrtotal])
    exact ⟨r', hneg, hr', by rw [hrtotal', hrtotal, hsame, Int.neg_neg]⟩

/-- Truncation towards zero: the quotient of the absolute values, with the sign. -/
theorem tdiv_eq (n d : Int) :
    n.tdiv d = if (n < 0 ↔ d < 0) then (if n < 0 then -n else n) / (if d < 0 then -d else d)
      else -((if n < 0 then -n else n) / (if d < 0 then -d else d)) := by
  by_cases hn : n < 0
  · have hnonneg : 0 ≤ -n := by omega
    by_cases hneg : d < 0
    · simp only [hn, hneg, if_true]
      rw [← Int.tdiv_eq_ediv_of_nonneg hnonneg, Int.neg_tdiv, Int.tdiv_neg, Int.neg_neg]
    · simp only [hn, hneg, if_true, if_false, iff_false, not_true_eq_false]
      rw [← Int.tdiv_eq_ediv_of_nonneg hnonneg, Int.neg_tdiv, Int.neg_neg]
  · have hnonneg : 0 ≤ n := by omega
    by_cases hneg : d < 0
    · simp only [hn, hneg, if_true, if_false, iff_true]
      rw [← Int.tdiv_eq_ediv_of_nonneg hnonneg, Int.tdiv_neg, Int.neg_neg]
    · simp only [hn, hneg, if_true, if_false]
      exact Int.tdiv_eq_ediv_of_nonneg hnonneg

theorem div_spec {tv : TimeVal} (h : tv.Valid) (hfit : MicrosecondsFit tv.total) {d : Int}
    (hd : int32.Fits d) (hmin : d ≠ -2147483648) (hzero : d ≠ 0) :
    ∃ r, div tv d = some r ∧ r.Valid ∧ r.total = tv.total.tdiv d := by
  obtain ⟨tv', habs, hvalid, hsec, htotal⟩ := abs_spec h hfit
  obtain ⟨d', habs', hd', hd'_le, hvalue⟩ := Helper.abs_spec hd hmin
  have hpos : 0 < d' := by
    rw [hvalue] at hd' ⊢
    split at hd' <;> omega
  have husec := h.usec
  have husec_nonneg := h.usec_nonneg
  have hsign : tv.tvSec < 0 ↔ tv.total < 0 := by
    unfold total
    omega
  have hfit' : MicrosecondsFit tv'.total := by
    unfold MicrosecondsFit at hfit ⊢
    split at htotal <;> omega
  obtain ⟨r, hdiv, hr, hrtotal⟩ := Helper.div_spec hvalid hsec hfit' hpos hd'_le
  -- a time has the sign of its seconds
  have hquotient := tdiv_eq tv.total d
  simp only [← hsign] at hquotient
  rw [← htotal, ← hvalue, ← hrtotal] at hquotient
  simp only [div, habs, habs', hdiv, Option.bind_eq_bind, Option.bind_some, sameSign_iff]
  split
  · rename_i hsame
    rw [if_pos hsame] at hquotient
    exact ⟨r, rfl, hr, hquotient.symm⟩
  · rename_i hsame
    rw [if_neg hsame] at hquotient
    have hfit_r : MicrosecondsFit r.total := by
      have hle : tv'.total / d' ≤ tv'.total := Int.ediv_le_self _ (total_nonneg hvalid hsec)
      have hnonneg : 0 ≤ tv'.total / d' := Int.ediv_nonneg (total_nonneg hvalid hsec) hd'
      rw [hrtotal]
      unfold MicrosecondsFit at hfit' ⊢
      omega
    obtain ⟨r', hneg, hr', hrtotal'⟩ := neg_spec hr hfit_r
    exact ⟨r', hneg, hr', by rw [hrtotal', hquotient]⟩

/-! ## When the arithmetic is exact -/

/-- The operation on the microseconds of two times. -/
def onMicroseconds (f : Int → Int → Int) (a b : TimeVal) : Option Int :=
  a.microseconds.bind fun x => b.microseconds.map fun y => f x y

theorem onMicroseconds_eq_some {f : Int → Int → Int} {a b : TimeVal} (ha : a.Valid)
    (hb : b.Valid) {n : Int} (h : onMicroseconds f a b = some n) :
    MicrosecondsFit a.total ∧ MicrosecondsFit b.total ∧ f a.total b.total = n := by
  obtain ⟨x, hx, hmap⟩ := Option.bind_eq_some_iff.mp h
  obtain ⟨y, hy, hn⟩ := Option.map_eq_some_iff.mp hmap
  obtain ⟨hfit, rfl⟩ := microseconds_eq_some ha hx
  obtain ⟨hfit', rfl⟩ := microseconds_eq_some hb hy
  exact ⟨hfit, hfit', hn⟩

/-- A result with the right microseconds is exact when they fit. -/
theorem Exact.of_total {result : Option TimeVal} {expected : Option Int} {n : Int}
    (h : ∃ r, result = some r ∧ r.Valid ∧ r.total = n) (hfit : MicrosecondsFit n)
    (hexpected : expected = some n) : Exact result expected := by
  obtain ⟨r, hr, hvalid, rfl⟩ := h
  exact ⟨r, _, hr, hvalid, hexpected, microseconds_eq hvalid hfit⟩

theorem Exact.fits {result : Option TimeVal} {expected : Option Int}
    (h : Exact result expected) : ∃ n, expected = some n ∧ MicrosecondsFit n := by
  obtain ⟨r, n, -, hvalid, hexpected, hmicroseconds⟩ := h
  obtain ⟨hfit, rfl⟩ := microseconds_eq_some hvalid hmicroseconds
  exact ⟨_, hexpected, hfit⟩

/-- An operation on two times that is right on microseconds that fit. -/
theorem exact_iff {op : TimeVal → TimeVal → Option TimeVal} {f : Int → Int → Int} {a b : TimeVal}
    (ha : a.Valid) (hb : b.Valid)
    (hop : MicrosecondsFit a.total → MicrosecondsFit b.total →
      ∃ r, op a b = some r ∧ r.Valid ∧ r.total = f a.total b.total) :
    Exact (op a b) (onMicroseconds f a b) ↔
      MicrosecondsFit a.total ∧ MicrosecondsFit b.total ∧ MicrosecondsFit (f a.total b.total) := by
  constructor
  · intro h
    obtain ⟨n, hexpected, hfit⟩ := h.fits
    obtain ⟨hfit_a, hfit_b, rfl⟩ := onMicroseconds_eq_some ha hb hexpected
    exact ⟨hfit_a, hfit_b, hfit⟩
  · rintro ⟨hfit_a, hfit_b, hfit⟩
    refine Exact.of_total (hop hfit_a hfit_b) hfit ?_
    rw [onMicroseconds, microseconds_eq ha hfit_a, microseconds_eq hb hfit_b]
    rfl

/-- An operation on one time that has a result only under `P`. -/
theorem exact_unary_iff {result : Option TimeVal} {f : Int → Int} {a : TimeVal} {P : Prop}
    (ha : a.Valid) (hP : result ≠ none → P)
    (hop : MicrosecondsFit a.total → P → MicrosecondsFit (f a.total) →
      ∃ r, result = some r ∧ r.Valid ∧ r.total = f a.total) :
    Exact result (a.microseconds.map f) ↔
      MicrosecondsFit a.total ∧ MicrosecondsFit (f a.total) ∧ P := by
  constructor
  · intro h
    obtain ⟨n, hexpected, hfit⟩ := h.fits
    obtain ⟨x, hx, rfl⟩ := Option.map_eq_some_iff.mp hexpected
    obtain ⟨hfit_a, rfl⟩ := microseconds_eq_some ha hx
    refine ⟨hfit_a, hfit, hP ?_⟩
    obtain ⟨r, -, hr, -⟩ := h
    rw [hr]
    exact Option.some_ne_none r
  · rintro ⟨hfit_a, hfit, hp⟩
    refine Exact.of_total (hop hfit_a hp hfit) hfit ?_
    rw [microseconds_eq ha hfit_a, Option.map_some]

/-- Nothing is multiplied by the least `int`. -/
theorem mul_min (tv : TimeVal) : mul tv (-2147483648) = none := by
  have habs : Helper.abs (-2147483648) = none := by decide +kernel
  simp only [mul, habs, Option.bind_eq_bind, Option.bind_none, Option.bind_fun_none]

theorem div_min (tv : TimeVal) : div tv (-2147483648) = none := by
  have habs : Helper.abs (-2147483648) = none := by decide +kernel
  simp only [div, habs, Option.bind_eq_bind, Option.bind_none, Option.bind_fun_none]

/-- The order of times is the order of their microseconds. -/
theorem compare_total {a b : TimeVal} (ha : a.Valid) (hb : b.Valid) :
    (eq a b = true ↔ a.total = b.total) ∧ (lt a b = true ↔ a.total < b.total) := by
  have husec := ha.usec
  have husec' := hb.usec
  have hnonneg := ha.usec_nonneg
  have hnonneg' := hb.usec_nonneg
  unfold eq lt total
  rw [decide_eq_true_iff, decide_eq_true_iff]
  omega

/-- `==` and `<` say of two times what holds of their microseconds. -/
def ComparesMicroseconds (a b : TimeVal) : Prop :=
  ∃ x y, a.microseconds = some x ∧ b.microseconds = some y ∧
    (eq a b = true ↔ x = y) ∧ (lt a b = true ↔ x < y)

theorem comparesMicroseconds_iff {a b : TimeVal} (ha : a.Valid) (hb : b.Valid) :
    ComparesMicroseconds a b ↔ MicrosecondsFit a.total ∧ MicrosecondsFit b.total := by
  constructor
  · rintro ⟨x, y, hx, hy, -⟩
    exact ⟨(microseconds_eq_some ha hx).1, (microseconds_eq_some hb hy).1⟩
  · rintro ⟨hfit, hfit'⟩
    exact ⟨_, _, microseconds_eq ha hfit, microseconds_eq hb hfit', compare_total ha hb⟩

/-- Each operator is exact when the microseconds of its operands and of the result fit, and
nothing is multiplied or divided by the least `int`; and in no other case. -/
theorem arithmetic_exact_iff {a b : TimeVal} {m d : Int} (ha : a.Valid) (hb : b.Valid)
    (hm : int32.Fits m) (hd : int32.Fits d) (hzero : d ≠ 0) :
    (Exact (add a b) (onMicroseconds (· + ·) a b) ↔
        MicrosecondsFit a.total ∧ MicrosecondsFit b.total ∧ MicrosecondsFit (a.total + b.total)) ∧
      (Exact (sub a b) (onMicroseconds (· - ·) a b) ↔
        MicrosecondsFit a.total ∧ MicrosecondsFit b.total ∧ MicrosecondsFit (a.total - b.total)) ∧
      (Exact (neg a) (a.microseconds.map (- ·)) ↔
        MicrosecondsFit a.total ∧ MicrosecondsFit (-a.total)) ∧
      (Exact (mul a m) (a.microseconds.map (· * m)) ↔
        MicrosecondsFit a.total ∧ MicrosecondsFit (a.total * m) ∧ m ≠ -2147483648) ∧
      (Exact (div a d) (a.microseconds.map (Int.tdiv · d)) ↔
        MicrosecondsFit a.total ∧ MicrosecondsFit (a.total.tdiv d) ∧ d ≠ -2147483648) ∧
      (ComparesMicroseconds a b ↔ MicrosecondsFit a.total ∧ MicrosecondsFit b.total) := by
  refine ⟨exact_iff ha hb (add_spec ha hb), exact_iff ha hb (sub_spec ha hb), ?_, ?_, ?_,
    comparesMicroseconds_iff ha hb⟩
  · have hneg : Exact (neg a) (a.microseconds.map (- ·)) ↔
        MicrosecondsFit a.total ∧ MicrosecondsFit (-a.total) ∧ True :=
      exact_unary_iff ha (fun _ => trivial) (fun hfit _ _ => neg_spec ha hfit)
    rwa [and_true] at hneg
  · refine exact_unary_iff ha ?_ (fun hfit hmin => mul_spec ha hfit hm hmin)
    rintro hsome rfl
    exact hsome (mul_min a)
  · refine exact_unary_iff ha ?_ (fun hfit hmin _ => div_spec ha hfit hd hmin hzero)
    rintro hsome rfl
    exact hsome (div_min a)

/-- Minus a second and a half, times -3 and divided by 4. -/
theorem arithmetic_exact_iff_negative :
    Exact (mul ⟨-2, 500000⟩ (-3)) ((microseconds ⟨-2, 500000⟩).map (· * -3)) ∧
      Exact (div ⟨-2, 500000⟩ 4) ((microseconds ⟨-2, 500000⟩).map (Int.tdiv · 4)) := by
  have hvalid : Valid ⟨-2, 500000⟩ := ⟨by decide, by decide, by decide⟩
  have h := arithmetic_exact_iff (m := -3) (d := 4) hvalid hvalid (by decide) (by decide)
    (by decide)
  exact ⟨h.2.2.2.1.mpr ⟨by decide, by decide, by decide⟩,
    h.2.2.2.2.1.mpr ⟨by decide, by decide, by decide⟩⟩

/-- A second times the least `int`, and the microseconds of 9223372036855 seconds, although
64 bits have room for the seconds of both. -/
theorem arithmetic_overflows :
    Valid ⟨1, 0⟩ ∧ int32.Fits (-2147483648) ∧ SecondsFit (total ⟨1, 0⟩ * -2147483648) ∧
      mul ⟨1, 0⟩ (-2147483648) = none ∧ div ⟨1, 0⟩ (-2147483648) = none ∧
      Valid ⟨9223372036855, 0⟩ ∧ SecondsFit (-total ⟨9223372036855, 0⟩) ∧
      microseconds ⟨9223372036855, 0⟩ = none := by
  refine ⟨⟨by decide, by decide, by decide⟩, by decide, by decide, mul_min _, div_min _,
    ⟨by decide, by decide, by decide⟩, by decide, by decide +kernel⟩

end TimeVal
end LiteMQ.Gears
