import Mathlib.Algebra.Order.Ring.Int
import Mathlib.Data.Nat.Log

/-!
# Integer types

An integer type of the language has a width of at least 8 bits, one of which is the sign
when there is one.  C++ leaves signed overflow undefined, so a modelled expression takes
each of its intermediate values through `checked`, and "no overflow" is that there is a
result.
-/

structure IntegerType where
  signed : Bool
  width : Nat
  width_ge : 8 ≤ width

namespace IntegerType

variable (T : IntegerType)

/-- `numeric_limits::digits`: the bits but the sign. -/
def digits : Nat := if T.signed then T.width - 1 else T.width

/-- `numeric_limits::max` -/
def max : Int := 2 ^ T.digits - 1

/-- `numeric_limits::min` -/
def min : Int := if T.signed then -2 ^ T.digits else 0

/-- `numeric_limits::digits10`: numbers of so many decimal digits are all in range. -/
def digits10 : Nat := Nat.log 10 (2 ^ T.digits)

/-- The number is in the range of the type. -/
def Fits (n : Int) : Prop := T.min ≤ n ∧ n ≤ T.max

instance (n : Int) : Decidable (T.Fits n) := inferInstanceAs (Decidable (_ ∧ _))

/-- An intermediate value; `none` on overflow. -/
def checked (n : Int) : Option Int := if T.Fits n then some n else none

/-- `int` -/
def int32 : IntegerType := ⟨true, 32, by decide⟩

/-- `long` -/
def int64 : IntegerType := ⟨true, 64, by decide⟩

/-- A result of type `size_t`, which wraps around. -/
def sizeT (n : Int) : Nat := (n % 2 ^ 64).toNat

/-- `static_cast<int>` of a wider value: its low 32 bits. -/
def castInt (n : Int) : Int := (n + 2 ^ 31) % 2 ^ 32 - 2 ^ 31

/-- The difference of two pointers, which is a `ptrdiff_t`. -/
def ptrdiffT (n : Int) : Int := (n + 2 ^ 63) % 2 ^ 64 - 2 ^ 63

variable {T}

theorem castInt_of_lt {n : Int} (hn : 0 ≤ n) (hlt : n < 2 ^ 31) : castInt n = n := by
  unfold castInt
  omega

theorem castInt_ge (n : Int) : -2 ^ 31 ≤ castInt n := by
  unfold castInt
  omega

/-- From 2 ^ 31 on the value gets smaller. -/
theorem castInt_lt {n : Int} (h : 2 ^ 31 ≤ n) : castInt n < n := by
  unfold castInt
  omega

theorem castInt_le {n : Int} (hn : 0 ≤ n) : castInt n ≤ n := by
  unfold castInt
  omega

theorem sizeT_of_nat {n : Nat} (h : n < 2 ^ 64) : sizeT n = n := by
  unfold sizeT
  omega

theorem sizeT_sub {m n : Nat} (hn : n ≤ m) (hm : m < 2 ^ 64) : sizeT (m - n) = m - n := by
  unfold sizeT
  omega

theorem checked_of_fits {n : Int} (h : T.Fits n) : T.checked n = some n := if_pos h

theorem checked_of_not_fits {n : Int} (h : ¬T.Fits n) : T.checked n = none := if_neg h

theorem fits_int32 {n : Int} : int32.Fits n ↔ -2147483648 ≤ n ∧ n ≤ 2147483647 := Iff.rfl

theorem fits_int64 {n : Int} :
    int64.Fits n ↔ -9223372036854775808 ≤ n ∧ n ≤ 9223372036854775807 := Iff.rfl

variable (T)

theorem digits_ge : 7 ≤ T.digits := by
  have hwidth := T.width_ge
  unfold digits
  split
  · omega
  · omega

theorem max_eq : T.max = ((2 ^ T.digits : Nat) : Int) - 1 := by
  rw [max]
  push_cast
  rfl

theorem max_ge : 127 ≤ T.max := by
  have hpow : (2 : Int) ^ 7 ≤ 2 ^ T.digits := pow_le_pow_right₀ (by decide) T.digits_ge
  unfold max
  omega

theorem min_le_zero : T.min ≤ 0 := by
  have hmax := T.max_ge
  unfold max at hmax
  unfold min
  split
  · omega
  · exact le_rfl

theorem min_of_signed (h : T.signed = true) : T.min = -T.max - 1 := by
  rw [min, if_pos h, max]
  omega

/-- A power of 2 does not end in the digit 0. -/
theorem two_pow_mod_ten (n : Nat) : 2 ^ n % 10 ≠ 0 := by
  have hfive : 2 ^ n % 5 ≠ 0 := by
    induction n with
    | zero => decide
    | succ n ih =>
        rw [Nat.pow_succ]
        omega
  omega

/-- Numbers of 64 bits have at most 20 digits. -/
theorem digits10_lt (h : T.digits ≤ 64) : T.digits10 < 20 := by
  have hpow : 2 ^ T.digits < 10 ^ 20 :=
    lt_of_le_of_lt (Nat.pow_le_pow_right (by decide) h) (by decide)
  exact Nat.log_lt_of_lt_pow (Nat.pos_iff_ne_zero.mp (Nat.two_pow_pos _)) hpow

/-- One digit more than `digits10` is enough for each number. -/
theorem max_lt_pow : T.max < ((10 ^ (T.digits10 + 1) : Nat) : Int) := by
  have hlt : 2 ^ T.digits < 10 ^ (T.digits10 + 1) := Nat.lt_pow_succ_log_self (by decide) _
  have hmax := T.max_eq
  omega

end IntegerType
