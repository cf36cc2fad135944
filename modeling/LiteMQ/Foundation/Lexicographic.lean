import Mathlib.Algebra.Order.Ring.Int
import Mathlib.Data.List.Lex

/-!
# Three-way comparison and the lexicographic order

`sign a b` is negative, zero or positive as `a` is less than, equal to or greater than `b`.
On lists, with the lexicographic order, it is the one of the first elements that differ, and
a proper prefix is less (`sign_cons`, `sign_nil_cons`).
-/

namespace Lexicographic

variable {α : Type} [LinearOrder α]

/-- -1, 0 or 1 as the first is less, equal or greater. -/
def sign (a b : α) : Int := if a < b then -1 else if b < a then 1 else 0

theorem sign_of_lt {a b : α} (h : a < b) : sign a b = -1 := if_pos h

theorem sign_of_gt {a b : α} (h : b < a) : sign a b = 1 := by
  rw [sign, if_neg (not_lt_of_gt h), if_pos h]

@[simp] theorem sign_self (a : α) : sign a a = 0 := by
  rw [sign, if_neg (lt_irrefl a), if_neg (lt_irrefl a)]

theorem sign_of_ne {a b : α} (h : a ≠ b) : sign a b = if a < b then -1 else 1 := by
  rcases lt_or_gt_of_ne h with hlt | hgt
  · rw [sign_of_lt hlt, if_pos hlt]
  · rw [sign_of_gt hgt, if_neg (not_lt_of_gt hgt)]

/-- As nested conditionals, with the test for equality first. -/
theorem sign_eq_ite (a b : α) : sign a b = if a = b then 0 else if a < b then -1 else 1 := by
  split
  · rename_i heq
    rw [heq, sign_self]
  · rename_i hne
    exact sign_of_ne hne

theorem sign_eq_zero {a b : α} : sign a b = 0 ↔ a = b := by
  constructor
  · intro h
    by_contra hne
    rw [sign_of_ne hne] at h
    split at h <;> cases h
  · rintro rfl
    exact sign_self a

theorem sign_lt_zero_iff {a b : α} : sign a b < 0 ↔ a < b := by
  constructor
  · intro h
    by_contra hnot
    rcases (not_lt.1 hnot).lt_or_eq with hgt | rfl
    · rw [sign_of_gt hgt] at h
      exact absurd h (by decide)
    · rw [sign_self] at h
      exact absurd h (by decide)
  · intro h
    rw [sign_of_lt h]
    decide

theorem sign_swap (a b : α) : sign b a = -sign a b := by
  rcases lt_trichotomy a b with h | rfl | h
  · rw [sign_of_lt h, sign_of_gt h]
    rfl
  · simp
  · rw [sign_of_lt h, sign_of_gt h]

theorem sign_eq_one {a b : α} : sign a b = 1 ↔ b < a := by
  constructor
  · intro h
    rw [← sign_lt_zero_iff, sign_swap, h]
    decide
  · exact sign_of_gt

/-- It is the sign of itself. -/
theorem sign_sign (a b : α) : (sign a b).sign = sign a b := by
  rcases lt_trichotomy a b with h | rfl | h
  · rw [sign_of_lt h]
    rfl
  · rw [sign_self]
    rfl
  · rw [sign_of_gt h]
    rfl

theorem sign_congr {β : Type} [LinearOrder β] {a b : α} {c d : β} (hlt : a < b ↔ c < d)
    (hgt : b < a ↔ d < c) : sign a b = sign c d := by
  rcases lt_trichotomy c d with h | heq | h
  · rw [sign_of_lt h, sign_of_lt (hlt.2 h)]
  · have heq' : a = b := by
      refine le_antisymm (not_lt.1 fun h => ?_) (not_lt.1 fun h => ?_)
      · exact absurd (hgt.1 h) (by rw [heq]; exact lt_irrefl d)
      · exact absurd (hlt.1 h) (by rw [heq]; exact lt_irrefl d)
    rw [heq, heq', sign_self, sign_self]
  · rw [sign_of_gt h, sign_of_gt (hgt.2 h)]

/-- The sign of a difference. -/
theorem sign_sub (a b : Int) : (a - b).sign = sign a b := by
  rcases lt_trichotomy a b with h | rfl | h
  · rw [sign_of_lt h, Int.sign_eq_neg_one_of_neg (by omega)]
  · rw [sign_self, Int.sub_self]
    rfl
  · rw [sign_of_gt h, Int.sign_eq_one_of_pos (by omega)]

/-! ## Lists -/

theorem sign_nil_cons (x : α) (a : List α) : sign [] (x :: a) = -1 :=
  sign_of_lt (List.nil_lt_cons x a)

/-- The first elements decide, unless they are equal. -/
theorem sign_cons (x y : α) (a b : List α) :
    sign (x :: a) (y :: b) = if x = y then sign a b else sign x y := by
  split
  · rename_i h
    subst h
    exact sign_congr List.cons_lt_cons_self List.cons_lt_cons_self
  · rename_i h
    rcases lt_or_gt_of_ne h with hlt | hgt
    · rw [sign_of_lt hlt, sign_of_lt (List.cons_lt_cons_iff.2 (Or.inl hlt))]
    · rw [sign_of_gt hgt, sign_of_gt (List.cons_lt_cons_iff.2 (Or.inl hgt))]

/-- The common part decides, and then the length. -/
theorem sign_eq_of_take (a b : List α) :
    sign a b =
      if sign (a.take (min a.length b.length)) (b.take (min a.length b.length)) ≠ 0 then
        sign (a.take (min a.length b.length)) (b.take (min a.length b.length))
      else sign a.length b.length := by
  induction a generalizing b with
  | nil =>
      cases b with
      | nil => simp
      | cons y b => simp [sign]
  | cons x a ih =>
      cases b with
      | nil => simp [sign]
      | cons y b =>
          rw [sign_cons, List.length_cons, List.length_cons, Nat.succ_min_succ,
            List.take_succ_cons, List.take_succ_cons, sign_cons]
          by_cases hxy : x = y
          · rw [if_pos hxy, if_pos hxy, ih,
              sign_congr (Nat.succ_lt_succ_iff (a := a.length)) Nat.succ_lt_succ_iff]
          · rw [if_neg hxy, if_neg hxy, if_pos (mt sign_eq_zero.1 hxy)]

/-- A proper prefix is less. -/
theorem lt_of_isPrefix {a b : List α} (hbegins : a <+: b) (hne : a ≠ b) : a < b := by
  obtain ⟨c, rfl⟩ := hbegins
  induction a with
  | nil =>
      obtain ⟨y, c, rfl⟩ := List.exists_cons_of_ne_nil (Ne.symm hne)
      exact List.nil_lt_cons y c
  | cons x a ih =>
      rw [List.cons_append, List.cons_lt_cons_self]
      exact ih (mt (congrArg (List.cons x)) hne)

end Lexicographic
