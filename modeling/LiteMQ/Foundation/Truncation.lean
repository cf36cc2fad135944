import Mathlib.Data.List.Basic

/-!
# Lists that agree up to a length

A text that goes through several buffers loses its end at each of them.  As long as no buffer
has room for less than `n` elements, the first `n` are those of the whole text: agreement up to
`n` is an equivalence that `append`, a cut behind `n` elements and `takeWhile` respect.
-/

namespace Truncation

variable {α : Type*} {n : Nat} {a a' b b' : List α}

/-- The first `n` elements are the same. -/
def AgreeUpTo (n : Nat) (a b : List α) : Prop := a.take n = b.take n

theorem AgreeUpTo.refl (n : Nat) (a : List α) : AgreeUpTo n a a := rfl

theorem AgreeUpTo.trans {c : List α} (h : AgreeUpTo n a b) (h' : AgreeUpTo n b c) :
    AgreeUpTo n a c := Eq.trans h h'

theorem agreeUpTo_take {m : Nat} (h : n ≤ m) (a : List α) : AgreeUpTo n (a.take m) a := by
  rw [AgreeUpTo, List.take_take, Nat.min_eq_left h]

/-- Lists that agree up to `n` are equally far from it. -/
theorem AgreeUpTo.sub_length (h : AgreeUpTo n a b) : n - a.length = n - b.length := by
  have hlength := congrArg List.length (show a.take n = b.take n from h)
  rw [List.length_take, List.length_take] at hlength
  omega

theorem AgreeUpTo.append (h : AgreeUpTo n a a') (h' : AgreeUpTo n b b') :
    AgreeUpTo n (a ++ b) (a' ++ b') := by
  have hrest : b.take (n - a'.length) = b'.take (n - a'.length) := by
    have hle : n - a'.length ≤ n := Nat.sub_le ..
    rw [← Nat.min_eq_left hle, ← List.take_take, ← List.take_take,
      show b.take n = b'.take n from h']
  rw [AgreeUpTo, List.take_append, List.take_append, h.sub_length, hrest,
    show a.take n = a'.take n from h]

theorem AgreeUpTo.takeWhile (h : AgreeUpTo n a b) (p : α → Bool) :
    AgreeUpTo n (a.takeWhile p) (b.takeWhile p) := by
  rw [AgreeUpTo, List.take_takeWhile, List.take_takeWhile, show a.take n = b.take n from h]

/-- With room for one element, nothing is left only of nothing. -/
theorem AgreeUpTo.eq_nil_iff (h : AgreeUpTo n a b) (hpos : 0 < n) : a = [] ↔ b = [] := by
  rw [← List.length_eq_zero_iff, ← List.length_eq_zero_iff]
  have hsub := h.sub_length
  have hlength := congrArg List.length (show a.take n = b.take n from h)
  rw [List.length_take, List.length_take] at hlength
  omega

end Truncation
