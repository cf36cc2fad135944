import Mathlib.Algebra.Ring.Nat
import Mathlib.Data.List.Basic

/-!
# Decimal numbers in bytes

The digits of a number, and the number of a string of digits, which may begin with a sign.

`scan bound` reads digits as long as the number does not exceed `bound`.  It gets to the
end of exactly the strings of digits whose number is not above the bound
(`scan_eq_true`).
-/

namespace Decimal

def IsDigit (c : UInt8) : Prop := 48 ≤ c.toNat ∧ c.toNat ≤ 57

instance (c : UInt8) : Decidable (IsDigit c) := inferInstanceAs (Decidable (_ ∧ _))

/-- The number of a digit. -/
def digit (c : UInt8) : Nat := c.toNat - 48

/-- The digit of a number. -/
def digitByte (d : Nat) : UInt8 := UInt8.ofNat (48 + d)

/-- The number that digits make behind those that gave `n`. -/
def numberOf (n : Nat) (digits : List UInt8) : Nat := digits.foldl (fun n c => n * 10 + digit c) n

/-- One or more digits. -/
structure IsDigits (digits : List UInt8) : Prop where
  nonempty : digits ≠ []
  isDigit : ∀ c ∈ digits, IsDigit c

/-- The string is a number in decimal digits, with an optional sign; a minus sign only where
there are negative numbers. -/
inductive Numeral (signed : Bool) : List UInt8 → Int → Prop
  | digits {s : List UInt8} (h : IsDigits s) : Numeral signed s (numberOf 0 s)
  | plus {s : List UInt8} (h : IsDigits s) : Numeral signed ('+'.toUInt8 :: s) (numberOf 0 s)
  | minus {s : List UInt8} (hsigned : signed = true) (h : IsDigits s) :
      Numeral signed ('-'.toUInt8 :: s) (-(numberOf 0 s : Int))

/-- Read digits behind those that gave `n`, up to `bound`: whether all could be read, and
the number of those that could. -/
def scan (bound : Nat) : List UInt8 → Nat → Bool × Nat
  | [], n => (true, n)
  | c :: s, n =>
      if IsDigit c ∧ n * 10 + digit c ≤ bound then scan bound s (n * 10 + digit c) else (false, n)

theorem le_numberOf (n : Nat) (s : List UInt8) : n ≤ numberOf n s := by
  induction s generalizing n with
  | nil => exact Nat.le_refl n
  | cons c s ih =>
      have hle : n * 10 + digit c ≤ numberOf n (c :: s) := ih _
      omega

theorem scan_eq_true {bound n m : Nat} {s : List UInt8} (hn : n ≤ bound) :
    scan bound s n = (true, m) ↔ (∀ c ∈ s, IsDigit c) ∧ numberOf n s = m ∧ m ≤ bound := by
  induction s generalizing n with
  | nil =>
      rw [scan, Prod.mk.injEq]
      constructor
      · rintro ⟨-, rfl⟩
        exact ⟨fun _ hc => absurd hc List.not_mem_nil, rfl, hn⟩
      · rintro ⟨-, hm, -⟩
        exact ⟨rfl, hm⟩
  | cons c s ih =>
      rw [scan, List.forall_mem_cons]
      have hle : n * 10 + digit c ≤ numberOf n (c :: s) := le_numberOf _ s
      -- the number only grows, so a digit that exceeds the bound decides
      by_cases hdigit : IsDigit c ∧ n * 10 + digit c ≤ bound
      · rw [if_pos hdigit, ih hdigit.2]
        constructor
        · rintro ⟨hs, hm, hbound⟩
          exact ⟨⟨hdigit.1, hs⟩, hm, hbound⟩
        · rintro ⟨⟨-, hs⟩, hm, hbound⟩
          exact ⟨hs, hm, hbound⟩
      · rw [if_neg hdigit]
        constructor
        · intro h
          cases h
        · rintro ⟨⟨hc, -⟩, hm, hbound⟩
          exact absurd ⟨hc, by omega⟩ hdigit

/-- What a reader answers that makes something of the number. -/
theorem scan_map_eq_true {α : Type} {bound : Nat} {s : List UInt8} {f : Nat → α} {x : α} :
    ((scan bound s 0).1, f (scan bound s 0).2) = (true, x) ↔
      (∀ c ∈ s, IsDigit c) ∧ numberOf 0 s ≤ bound ∧ f (numberOf 0 s) = x := by
  rw [Prod.mk.injEq]
  constructor
  · rintro ⟨htrue, rfl⟩
    obtain ⟨hdigits, hnumber, hle⟩ :=
      (scan_eq_true (Nat.zero_le bound)).mp (Prod.ext_iff.mpr ⟨htrue, rfl⟩)
    exact ⟨hdigits, hnumber ▸ hle, congrArg f hnumber⟩
  · rintro ⟨hdigits, hle, rfl⟩
    have hscan := (scan_eq_true (Nat.zero_le bound)).mpr ⟨hdigits, rfl, hle⟩
    rw [hscan]
    exact ⟨rfl, rfl⟩

/-! ## Numerals -/

theorem not_numeral_nil (signed : Bool) (n : Int) : ¬Numeral signed [] n := by
  intro h
  cases h with
  | digits h => exact h.nonempty rfl

/-- A numeral by its first character. -/
theorem numeral_cons {signed : Bool} {c : UInt8} {s : List UInt8} {n : Int} :
    Numeral signed (c :: s) n ↔
      if c = '-'.toUInt8 then signed = true ∧ IsDigits s ∧ -(numberOf 0 s : Int) = n
      else if c = '+'.toUInt8 then IsDigits s ∧ (numberOf 0 s : Int) = n
      else IsDigits (c :: s) ∧ (numberOf 0 (c :: s) : Int) = n := by
  have hminus : ¬IsDigit '-'.toUInt8 := by decide
  have hplus : ¬IsDigit '+'.toUInt8 := by decide
  constructor
  · intro h
    cases h with
    | digits h =>
        have hc : IsDigit c := h.isDigit c List.mem_cons_self
        rw [if_neg (by rintro rfl; exact hminus hc), if_neg (by rintro rfl; exact hplus hc)]
        exact ⟨h, rfl⟩
    | plus h =>
        rw [if_neg (by decide), if_pos rfl]
        exact ⟨h, rfl⟩
    | minus hsigned h =>
        rw [if_pos rfl]
        exact ⟨hsigned, h, rfl⟩
  · split
    · rename_i hc
      subst hc
      rintro ⟨hsigned, h, rfl⟩
      exact .minus hsigned h
    · split
      · rename_i hc
        subst hc
        rintro ⟨h, rfl⟩
        exact .plus h
      · rintro ⟨h, rfl⟩
        exact .digits h

/-! ## The digits of a number -/

/-- The digits of a number, the last one first. -/
def lowFirst (n : Nat) : List UInt8 :=
  digitByte (n % 10) :: if n / 10 = 0 then [] else lowFirst (n / 10)
termination_by n
decreasing_by omega

/-- The digits of a number. -/
def decimal (n : Nat) : List UInt8 := (lowFirst n).reverse

theorem digitByte_spec {d : Nat} (hd : d < 10) :
    IsDigit (digitByte d) ∧ digit (digitByte d) = d := by
  have hnat : (digitByte d).toNat = 48 + d := by
    rw [digitByte, UInt8.toNat_ofNat', Nat.mod_eq_of_lt (by omega)]
  unfold IsDigit digit
  omega

theorem decimal_of_lt {n : Nat} (hn : n < 10) : decimal n = [digitByte n] := by
  rw [decimal, lowFirst, if_pos (by omega), Nat.mod_eq_of_lt hn]
  rfl

theorem decimal_of_ge {n : Nat} (hn : 10 ≤ n) :
    decimal n = decimal (n / 10) ++ [digitByte (n % 10)] := by
  rw [decimal, lowFirst, if_neg (by omega), List.reverse_cons]
  rfl

theorem decimal_isDigits (n : Nat) : IsDigits (decimal n) := by
  induction n using Nat.strongRecOn with
  | ind n ih =>
      have hlast := (digitByte_spec (Nat.mod_lt n (by omega : 0 < 10))).1
      rcases Nat.lt_or_ge n 10 with hlt | hge
      · rw [decimal_of_lt hlt]
        rw [Nat.mod_eq_of_lt hlt] at hlast
        exact ⟨List.cons_ne_nil _ _, by simpa using hlast⟩
      · have hbefore := ih (n / 10) (by omega)
        rw [decimal_of_ge hge]
        refine ⟨by simp, fun c hc => ?_⟩
        rcases List.mem_append.mp hc with hc | hc
        · exact hbefore.isDigit c hc
        · rwa [List.mem_singleton.mp hc]

theorem numberOf_decimal (n : Nat) : numberOf 0 (decimal n) = n := by
  induction n using Nat.strongRecOn with
  | ind n ih =>
      have hlast := (digitByte_spec (Nat.mod_lt n (by omega : 0 < 10))).2
      rcases Nat.lt_or_ge n 10 with hlt | hge
      · rw [Nat.mod_eq_of_lt hlt] at hlast
        rw [decimal_of_lt hlt]
        simp [numberOf, hlast]
      · have hbefore := ih (n / 10) (by omega)
        unfold numberOf at hbefore ⊢
        rw [decimal_of_ge hge, List.foldl_append, hbefore, List.foldl_cons, hlast, List.foldl_nil]
        omega

theorem length_decimal_le {n k : Nat} (hn : n < 10 ^ (k + 1)) :
    (decimal n).length ≤ k + 1 := by
  induction k generalizing n with
  | zero =>
      rw [decimal_of_lt (by simpa using hn)]
      exact Nat.le_refl 1
  | succ k ih =>
      rcases Nat.lt_or_ge n 10 with hlt | hge
      · rw [decimal_of_lt hlt, List.length_singleton]
        omega
      · rw [decimal_of_ge hge, List.length_append, List.length_singleton]
        rw [Nat.pow_succ] at hn
        exact Nat.succ_le_succ (ih (by omega))

end Decimal
