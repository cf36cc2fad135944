import LiteMQ.Foundation.DecimalBytes
import LiteMQ.Foundation.IntegerType

/-!
# `StringManip::str_to_int`

The digits of a negative number are subtracted, so that the least number can be read as
well.  Each digit is checked before it is added: the number so far must not be above
`max() / 10`, and when it is just that, the digit must not be above the last digit of
the bound.  So no intermediate value overflows, and exactly the numbers of the type are
read (`strToInt_eq_true`).
-/

namespace LiteMQ.Gears.StringManip

open Decimal

/-- `static_cast<unsigned char>` -/
def toUnsignedChar (n : Int) : Int := n % 256

/-- `static_cast<unsigned char>(*src) - static_cast<unsigned char>('0')` -/
def digitOf (c : UInt8) : Int := toUnsignedChar ((c.toNat : Int) - 48)

section

variable (T : IntegerType)

/-- `LIMIT` -/
def limit : Int := T.max.tdiv 10

/-- The loop of the negative numbers. -/
def readNegative : List UInt8 → (value : Int) → Option (Bool × Int)
  | [], value => some (true, value)
  | c :: src, value =>
      let ch := digitOf c
      if ch > 9 then some (false, value)
      else do
        let low ← T.checked (-limit T)
        if value < low then some (false, value)
        else do
          let scaled ← T.checked (limit T * 10)
          let rest ← T.checked (T.min + scaled)
          let last ← T.checked (-rest)
          if value = low ∧ ch > toUnsignedChar last then some (false, value)
          else do
            let value ← T.checked (value * 10)
            let value ← T.checked (value - ch)
            readNegative src value

/-- The loop of the other numbers. -/
def readPositive : List UInt8 → (value : Int) → Option (Bool × Int)
  | [], value => some (true, value)
  | c :: src, value =>
      let ch := digitOf c
      if ch > 9 ∨ value > limit T then some (false, value)
      else do
        let scaled ← T.checked (limit T * 10)
        let last ← T.checked (T.max - scaled)
        if value = limit T ∧ ch > toUnsignedChar last then some (false, value)
        else do
          let value ← T.checked (value * 10)
          let value ← T.checked (value + ch)
          readPositive src value

/-- `str_to_int`: what it returns, and the value behind the reference; `none` when an
intermediate value overflows. -/
def strToInt (str : List UInt8) (value : Int) : Option (Bool × Int) :=
  match str with
  | [] => some (false, value)
  | c :: src =>
      if c = '-'.toUInt8 then
        if T.signed = false ∨ src = [] then some (false, value) else readNegative T src 0
      else if c = '+'.toUInt8 then
        if src = [] then some (false, value) else readPositive T src 0
      else readPositive T (c :: src) 0

end

variable {T : IntegerType}

/-! ## The bounds -/

theorem nine_lt_digitOf {c : UInt8} (hc : ¬IsDigit c) : digitOf c > 9 := by
  have hlt := c.toNat_lt
  unfold IsDigit at hc
  unfold digitOf toUnsignedChar
  omega

theorem digit_le_nine {c : UInt8} (hc : IsDigit c) : (digit c : Int) ≤ 9 := by
  unfold IsDigit at hc
  unfold digit
  omega

theorem digitOf_eq {c : UInt8} (hc : IsDigit c) : digitOf c = digit c := by
  unfold IsDigit at hc
  unfold digitOf toUnsignedChar digit
  omega

theorem limit_eq : limit T = T.max / 10 :=
  Int.tdiv_eq_ediv_of_nonneg (le_trans (by decide) T.max_ge)

/-- The number behind the greatest one does not end in 0, so that a tenth of it is `LIMIT`
as well. -/
theorem max_last_digit : T.max % 10 ≠ 9 := by
  have hpow := IntegerType.two_pow_mod_ten T.digits
  have hmax := T.max_eq
  omega

/-- One digit of a number that is not negative. -/
theorem readPositive_cons {n : Nat} (hn : (n : Int) ≤ T.max) (c : UInt8) (src : List UInt8) :
    readPositive T (c :: src) n =
      if IsDigit c ∧ n * 10 + digit c ≤ T.max.toNat then
        readPositive T src ((n * 10 + digit c : Nat) : Int)
      else some (false, (n : Int)) := by
  have hmax := T.max_ge
  have hmin := T.min_le_zero
  have hscaled : T.Fits (T.max / 10 * 10) := ⟨by omega, by omega⟩
  have hlast : T.Fits (T.max - T.max / 10 * 10) := ⟨by omega, by omega⟩
  have hchar : toUnsignedChar (T.max - T.max / 10 * 10) = T.max % 10 := by
    unfold toUnsignedChar
    omega
  rw [readPositive]
  simp only [limit_eq, IntegerType.checked_of_fits hscaled, Option.bind_eq_bind,
    Option.bind_some, IntegerType.checked_of_fits hlast, hchar]
  by_cases hread : IsDigit c ∧ n * 10 + digit c ≤ T.max.toNat
  · -- neither bound is met, and nothing overflows
    obtain ⟨hc, hle⟩ := hread
    have hten : T.Fits ((n : Int) * 10) := ⟨by omega, by omega⟩
    have hsum : T.Fits ((n : Int) * 10 + (digit c : Int)) := ⟨by omega, by omega⟩
    have hdigit := digit_le_nine hc
    rw [digitOf_eq hc]
    have hbelow : ¬((digit c : Int) > 9 ∨ (n : Int) > T.max / 10) := by omega
    have hlast_digit : ¬((n : Int) = T.max / 10 ∧ (digit c : Int) > T.max % 10) := by omega
    rw [if_neg hbelow, if_neg hlast_digit, IntegerType.checked_of_fits hten, Option.bind_some,
      IntegerType.checked_of_fits hsum, Option.bind_some, if_pos ⟨hc, hle⟩]
    push_cast
    rfl
  · rw [if_neg hread]
    by_cases hc : IsDigit c
    · have hdigit := digit_le_nine hc
      rw [digitOf_eq hc]
      have hle : ¬n * 10 + digit c ≤ T.max.toNat := fun hle => hread ⟨hc, hle⟩
      by_cases habove : (n : Int) > T.max / 10
      · rw [if_pos (Or.inr habove)]
      · -- at `LIMIT` the last digit decides
        have hbelow : ¬((digit c : Int) > 9 ∨ (n : Int) > T.max / 10) := by omega
        have hlast_digit : (n : Int) = T.max / 10 ∧ (digit c : Int) > T.max % 10 := by omega
        rw [if_neg hbelow, if_pos hlast_digit]
    · rw [if_pos (Or.inl (nine_lt_digitOf hc))]

theorem readPositive_eq (src : List UInt8) {n : Nat} (hn : (n : Int) ≤ T.max) :
    readPositive T src n =
      some ((scan T.max.toNat src n).1, ((scan T.max.toNat src n).2 : Int)) := by
  induction src generalizing n with
  | nil => rfl
  | cons c src ih =>
      rw [readPositive_cons hn, scan]
      split
      · rename_i hread
        exact ih (by omega)
      · rfl

/-- One digit of a negative number. -/
theorem readNegative_cons (hsigned : T.signed = true) (n : Nat) (c : UInt8) (src : List UInt8) :
    readNegative T (c :: src) (-(n : Int)) =
      if IsDigit c ∧ n * 10 + digit c ≤ (-T.min).toNat then
        readNegative T src (-((n * 10 + digit c : Nat) : Int))
      else some (false, -(n : Int)) := by
  have hmax := T.max_ge
  have hmin := IntegerType.min_of_signed T hsigned
  have hnine := max_last_digit (T := T)
  have hlow : T.Fits (-(T.max / 10)) := ⟨by omega, by omega⟩
  have hscaled : T.Fits (T.max / 10 * 10) := ⟨by omega, by omega⟩
  have hrest : T.Fits (T.min + T.max / 10 * 10) := ⟨by omega, by omega⟩
  have hlast : T.Fits (-(T.min + T.max / 10 * 10)) := ⟨by omega, by omega⟩
  have hchar : toUnsignedChar (-(T.min + T.max / 10 * 10)) = T.max % 10 + 1 := by
    unfold toUnsignedChar
    omega
  rw [readNegative]
  simp only [limit_eq, IntegerType.checked_of_fits hlow, IntegerType.checked_of_fits hscaled,
    IntegerType.checked_of_fits hrest, Option.bind_eq_bind, Option.bind_some,
    IntegerType.checked_of_fits hlast, hchar]
  by_cases hread : IsDigit c ∧ n * 10 + digit c ≤ (-T.min).toNat
  · -- neither bound is met, and nothing overflows
    obtain ⟨hc, hle⟩ := hread
    have hten : T.Fits (-(n : Int) * 10) := ⟨by omega, by omega⟩
    have hsum : T.Fits (-(n : Int) * 10 - (digit c : Int)) := ⟨by omega, by omega⟩
    have hvalue : -(n : Int) * 10 - (digit c : Int) = -((n * 10 + digit c : Nat) : Int) := by
      push_cast
      omega
    have hdigit := digit_le_nine hc
    rw [digitOf_eq hc]
    have hnine' : ¬(digit c : Int) > 9 := by omega
    have hbelow : ¬-(n : Int) < -(T.max / 10) := by omega
    have hlast_digit : ¬(-(n : Int) = -(T.max / 10) ∧ (digit c : Int) > T.max % 10 + 1) := by omega
    rw [if_neg hnine', if_neg hbelow, if_neg hlast_digit, IntegerType.checked_of_fits hten,
      Option.bind_some, IntegerType.checked_of_fits hsum, Option.bind_some, hvalue,
      if_pos ⟨hc, hle⟩]
  · rw [if_neg hread]
    by_cases hc : IsDigit c
    · have hdigit := digit_le_nine hc
      rw [digitOf_eq hc]
      have hle : ¬n * 10 + digit c ≤ (-T.min).toNat := fun hle => hread ⟨hc, hle⟩
      have hnine' : ¬(digit c : Int) > 9 := by omega
      rw [if_neg hnine']
      by_cases habove : -(n : Int) < -(T.max / 10)
      · rw [if_pos habove]
      · -- at `-LIMIT` the last digit decides
        have hlast_digit : -(n : Int) = -(T.max / 10) ∧ (digit c : Int) > T.max % 10 + 1 := by
          omega
        rw [if_neg habove, if_pos hlast_digit]
    · rw [if_pos (nine_lt_digitOf hc)]

theorem readNegative_eq (hsigned : T.signed = true) (src : List UInt8) (n : Nat) :
    readNegative T src (-(n : Int)) =
      some ((scan (-T.min).toNat src n).1, -((scan (-T.min).toNat src n).2 : Int)) := by
  induction src generalizing n with
  | nil => rfl
  | cons c src ih =>
      rw [readNegative_cons hsigned n, scan]
      split
      · exact ih _
      · rfl

/-! ## What is read -/

theorem readPositive_eq_true {src : List UInt8} (hne : src ≠ []) {n : Int} :
    readPositive T src 0 = some (true, n) ↔
      (IsDigits src ∧ (numberOf 0 src : Int) = n) ∧ T.Fits n := by
  have hmax := T.max_ge
  have hmin := T.min_le_zero
  have hread := readPositive_eq (T := T) src (n := 0) (by omega)
  rw [Nat.cast_zero] at hread
  rw [hread, Option.some.injEq, scan_map_eq_true]
  constructor
  · rintro ⟨hdigits, hle, rfl⟩
    exact ⟨⟨⟨hne, hdigits⟩, rfl⟩, by omega, by omega⟩
  · rintro ⟨⟨hdigits, rfl⟩, hfits⟩
    have hle := hfits.2
    exact ⟨hdigits.isDigit, by omega, rfl⟩

theorem readNegative_eq_true (hsigned : T.signed = true) {src : List UInt8} (hne : src ≠ [])
    {n : Int} :
    readNegative T src 0 = some (true, n) ↔
      (T.signed = true ∧ IsDigits src ∧ -(numberOf 0 src : Int) = n) ∧ T.Fits n := by
  have hmax := T.max_ge
  have hmin := T.min_le_zero
  have hread := readNegative_eq hsigned src 0
  rw [Nat.cast_zero, Int.neg_zero] at hread
  rw [hread, Option.some.injEq, scan_map_eq_true (f := fun n => -(n : Int))]
  constructor
  · rintro ⟨hdigits, hle, rfl⟩
    exact ⟨⟨hsigned, ⟨hne, hdigits⟩, rfl⟩, by omega, by omega⟩
  · rintro ⟨⟨-, hdigits, rfl⟩, hfits⟩
    have hle := hfits.1
    exact ⟨hdigits.isDigit, by omega, rfl⟩

/-- `str_to_int` returns true on the numerals of the numbers of the type, and stores the
number. -/
theorem strToInt_eq_true (str : List UInt8) (value n : Int) :
    strToInt T str value = some (true, n) ↔ Numeral T.signed str n ∧ T.Fits n := by
  have hrefused : some (false, value) ≠ some (true, n) := by
    intro h
    cases h
  cases str with
  | nil => exact iff_of_false hrefused fun h => not_numeral_nil _ n h.1
  | cons c src =>
      rw [strToInt, numeral_cons]
      split
      · split
        · -- a minus sign for an unsigned type, or alone
          rename_i hnone
          refine iff_of_false hrefused ?_
          rintro ⟨⟨hsigned, hdigits, -⟩, -⟩
          rcases hnone with hunsigned | hempty
          · rw [hunsigned] at hsigned
            cases hsigned
          · exact hdigits.nonempty hempty
        · rename_i hsome
          obtain ⟨hsigned, hne⟩ := not_or.mp hsome
          rw [Bool.not_eq_false] at hsigned
          exact readNegative_eq_true hsigned hne
      · split
        · split
          · rename_i hempty
            exact iff_of_false hrefused fun h => h.1.1.nonempty hempty
          · rename_i hne
            exact readPositive_eq_true hne
        · exact readPositive_eq_true (List.cons_ne_nil _ _)

/-- No intermediate value overflows. -/
theorem strToInt_ne_none (str : List UInt8) (value : Int) : strToInt T str value ≠ none := by
  have hmax := T.max_ge
  have hpositive : ∀ src, readPositive T src 0 ≠ none := by
    intro src
    have hread := readPositive_eq (T := T) src (n := 0) (by omega)
    rw [Nat.cast_zero] at hread
    rw [hread]
    exact Option.some_ne_none _
  cases str with
  | nil => exact Option.some_ne_none _
  | cons c src =>
      rw [strToInt]
      split
      · split
        · exact Option.some_ne_none _
        · rename_i hsome
          have hsigned : T.signed = true := Bool.not_eq_false _ ▸ (not_or.mp hsome).1
          have hread := readNegative_eq hsigned src 0
          rw [Nat.cast_zero, Int.neg_zero] at hread
          rw [hread]
          exact Option.some_ne_none _
      · split
        · split
          · exact Option.some_ne_none _
          · exact hpositive src
        · exact hpositive _

/-- `str_to_int` accepts exactly the decimal numbers of the type, without overflow. -/
theorem strToInt_spec (T : IntegerType) (str : List UInt8) (value : Int) :
    strToInt T str value ≠ none ∧
      ∀ n, strToInt T str value = some (true, n) ↔ Numeral T.signed str n ∧ T.Fits n :=
  ⟨strToInt_ne_none str value, strToInt_eq_true str value⟩

end LiteMQ.Gears.StringManip
