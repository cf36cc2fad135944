import LiteMQ.Foundation.Lexicographic
import LiteMQ.Foundation.Memory

/-!
# Comparisons of `BasicSubString`

A substring is the list of its characters; a C string is what can be read from its pointer
on.  The comparison with a C string does not look for its end first, and takes a substring
that goes on behind it for the lesser one.  The operator with the C string on the left is
the negation of the one with the C string on the right.

So two substrings are compared lexicographically, and a substring and a C string are just
when the C string is not a prefix of the substring (`ordered_iff`).
-/

namespace LiteMQ.Gears.BasicSubString

open Lexicographic

section

variable {α : Type} [LinearOrder α] [Zero α]

/-! ## The functions -/

/-- `Traits::compare`: the loop over `size` characters. -/
def traitsCompare : (str1 str2 : List α) → (size : Nat) → Except Fault Int
  | _, _, 0 => .ok 0
  | str1, str2, size + 1 => do
      let ch1 ← Buffer.load str1 0
      let ch2 ← Buffer.load str2 0
      if ch1 ≠ ch2 then .ok (if ch1 < ch2 then -1 else 1)
      else traitsCompare (str1.drop 1) (str2.drop 1) size

/-- `compare(const BasicSubString&)` -/
def compareSub (s str : List α) : Except Fault Int := do
  let len := min s.length str.length
  let result ← traitsCompare s str len
  if result ≠ 0 then .ok result
  else .ok (if s.length = str.length then 0 else if s.length < str.length then -1 else 1)

/-- `compare(ConstPointer)` -/
def compareCString : (ptr str : List α) → Except Fault Int
  | [], str => do
      let ch ← Buffer.load str 0
      .ok (if ch = 0 then 0 else -1)
  | ch2 :: ptr, str => do
      let ch ← Buffer.load str 0
      if ch = 0 then .ok (-1)
      else if ch2 ≠ ch then .ok (if ch2 < ch then -1 else 1)
      else compareCString ptr (str.drop 1)

/-- `equal(ConstPointer)` -/
def equalCString : (ptr str : List α) → Except Fault Bool
  | [], str => do
      let ch ← Buffer.load str 0
      .ok (decide (ch = 0))
  | ch2 :: ptr, str => do
      let ch ← Buffer.load str 0
      if ch = 0 ∨ ch2 ≠ ch then .ok false else equalCString ptr (str.drop 1)

/-- `equal(const BasicSubString&)` -/
def equalSub (s str : List α) : Except Fault Bool :=
  if str.length ≠ s.length then .ok false
  else do
    let result ← traitsCompare s str s.length
    .ok (decide (result = 0))

/-- `operator <` of two substrings. -/
def subLessSub (left right : List α) : Except Fault Bool := do
  let result ← compareSub left right
  .ok (decide (result < 0))

/-- `operator <` with the C string on the right. -/
def subLessCString (substr str : List α) : Except Fault Bool := do
  let result ← compareCString substr str
  .ok (decide (result < 0))

/-- `operator <` with the C string on the left. -/
def cStringLessSub (str substr : List α) : Except Fault Bool := do
  let less ← subLessCString substr str
  .ok (!less)

end

variable {α : Type} [LinearOrder α]

/-! ## Two substrings -/

theorem traitsCompare_eq {a b : List α} {size : Nat} (ha : size ≤ a.length)
    (hb : size ≤ b.length) :
    traitsCompare a b size = .ok (sign (a.take size) (b.take size)) := by
  induction size generalizing a b with
  | zero => simp [traitsCompare]
  | succ size ih =>
      obtain ⟨x, a, rfl⟩ := List.exists_cons_of_length_pos (Nat.lt_of_lt_of_le (by omega) ha)
      obtain ⟨y, b, rfl⟩ := List.exists_cons_of_length_pos (Nat.lt_of_lt_of_le (by omega) hb)
      rw [traitsCompare, Buffer.load_cons, Fault.ok_bind, Buffer.load_cons, Fault.ok_bind,
        List.take_succ_cons, List.take_succ_cons, sign_cons]
      by_cases hxy : x = y
      · rw [if_neg (not_not.2 hxy), if_pos hxy]
        exact ih (Nat.le_of_succ_le_succ ha) (Nat.le_of_succ_le_succ hb)
      · rw [if_pos hxy, if_neg hxy, sign_of_ne hxy]

theorem compareSub_eq (a b : List α) : compareSub a b = .ok (sign a b) := by
  rw [compareSub, traitsCompare_eq (Nat.min_le_left _ _) (Nat.min_le_right _ _), Fault.ok_bind,
    sign_eq_of_take a b, ← sign_eq_ite]
  split <;> rfl

theorem equalSub_eq (a b : List α) : equalSub a b = .ok (decide (a = b)) := by
  rw [equalSub]
  split
  · rename_i hlen
    have hne : a ≠ b := by
      rintro rfl
      exact hlen rfl
    rw [decide_eq_false hne]
  · rename_i hlen
    have hlen : b.length = a.length := not_not.1 hlen
    rw [traitsCompare_eq (Nat.le_refl _) (Nat.le_of_eq hlen.symm), Fault.ok_bind,
      List.take_length, ← hlen, List.take_length]
    simp only [sign_eq_zero]

/-! ## A substring and a C string -/

section

variable [Zero α] {s t : List α}

/-- Behind the end of the C string the substring counts as the lesser one. -/
theorem compareCString_eq (ht : 0 ∉ t) (s more : List α) :
    compareCString s (t ++ 0 :: more) = .ok (if t <+: s ∧ t ≠ s then -1 else sign s t) := by
  induction s generalizing t with
  | nil =>
      cases t with
      | nil => simp [compareCString, Buffer.load]
      | cons y t =>
          obtain ⟨hy, -⟩ := List.ne_and_not_mem_of_not_mem_cons ht
          rw [List.cons_append, compareCString, Buffer.load_cons, Fault.ok_bind,
            if_neg (Ne.symm hy), if_neg (by simp), sign_nil_cons]
  | cons x s ih =>
      cases t with
      | nil =>
          rw [List.nil_append, compareCString, Buffer.load_cons, Fault.ok_bind, if_pos rfl,
            if_pos (by simp)]
      | cons y t =>
          obtain ⟨hy, hrest⟩ := List.ne_and_not_mem_of_not_mem_cons ht
          rw [List.cons_append, compareCString, Buffer.load_cons, Fault.ok_bind,
            if_neg (Ne.symm hy), List.drop_one, List.tail_cons, sign_cons]
          by_cases hxy : x = y
          · subst hxy
            rw [if_neg (not_not.2 rfl), if_pos rfl, ih hrest]
            simp only [List.cons_prefix_cons, true_and, ne_eq, List.cons.injEq]
          · have hbegins : ¬(y :: t <+: x :: s ∧ y :: t ≠ x :: s) := by
              rintro ⟨h, -⟩
              exact hxy (List.cons_prefix_cons.1 h).1.symm
            rw [if_pos hxy, if_neg hbegins, if_neg hxy, sign_of_ne hxy]

theorem equalCString_eq (hs : 0 ∉ s) (ht : 0 ∉ t) (more : List α) :
    equalCString s (t ++ 0 :: more) = .ok (decide (s = t)) := by
  induction s generalizing t with
  | nil =>
      cases t with
      | nil => simp [equalCString, Buffer.load]
      | cons y t =>
          obtain ⟨hy, -⟩ := List.ne_and_not_mem_of_not_mem_cons ht
          simp [equalCString, Buffer.load, Ne.symm hy]
  | cons x s ih =>
      obtain ⟨hx, hrest⟩ := List.ne_and_not_mem_of_not_mem_cons hs
      cases t with
      | nil => simp [equalCString, Buffer.load]
      | cons y t =>
          obtain ⟨hy, hrest'⟩ := List.ne_and_not_mem_of_not_mem_cons ht
          rw [List.cons_append, equalCString, Buffer.load_cons, Fault.ok_bind, List.drop_one,
            List.tail_cons]
          by_cases hxy : x = y
          · subst hxy
            rw [if_neg (by simp [Ne.symm hx]), ih hrest hrest']
            simp
          · rw [if_pos (Or.inr hxy)]
            simp [hxy]

/-- The comparisons of a substring and a C string are those of the lexicographic order. -/
structure Ordered (s t more : List α) : Prop where
  compare : ∃ r, compareCString s (t ++ 0 :: more) = .ok r ∧ r.sign = sign s t
  equal : equalCString s (t ++ 0 :: more) = .ok (decide (s = t))
  subLess : subLessCString s (t ++ 0 :: more) = .ok (decide (s < t))
  cStringLess : cStringLessSub (t ++ 0 :: more) s = .ok (decide (t < s))

theorem compare_right_iff (ht : 0 ∉ t) (more : List α) :
    (∃ r, compareCString s (t ++ 0 :: more) = .ok r ∧ r.sign = sign s t) ↔
      ¬(t <+: s ∧ t ≠ s) := by
  rw [compareCString_eq ht]
  constructor
  · rintro ⟨r, hr, hsign⟩ hproper
    rw [if_pos hproper] at hr
    obtain rfl : -1 = r := Except.ok.inj hr
    rw [sign_of_gt (lt_of_isPrefix hproper.1 hproper.2)] at hsign
    exact absurd hsign (by decide)
  · intro hproper
    rw [if_neg hproper]
    exact ⟨_, rfl, sign_sign s t⟩

/-- A C string that is a proper prefix counts as the greater one. -/
theorem subLessCString_eq (ht : 0 ∉ t) (more : List α) :
    subLessCString s (t ++ 0 :: more) = .ok (decide (s < t ∨ (t <+: s ∧ t ≠ s))) := by
  rw [subLessCString, compareCString_eq ht, Fault.ok_bind]
  by_cases hproper : t <+: s ∧ t ≠ s
  · simp [hproper]
  · simp [hproper, sign_lt_zero_iff]

theorem subLess_right_iff (ht : 0 ∉ t) (more : List α) :
    subLessCString s (t ++ 0 :: more) = .ok (decide (s < t)) ↔ ¬(t <+: s ∧ t ≠ s) := by
  rw [subLessCString_eq ht]
  constructor
  · intro h hproper
    have hnot : ¬s < t := not_lt_of_gt (lt_of_isPrefix hproper.1 hproper.2)
    simp [hproper, hnot] at h
  · intro hproper
    simp [hproper]

/-- With the C string on the left, equal strings are wrong as well. -/
theorem cStringLess_right_iff (ht : 0 ∉ t) (more : List α) :
    cStringLessSub (t ++ 0 :: more) s = .ok (decide (t < s)) ↔ ¬t <+: s := by
  rw [cStringLessSub, subLessCString_eq ht, Fault.ok_bind]
  constructor
  · intro h hbegins
    by_cases heq : t = s
    · subst heq
      simp at h
    · have hlt := lt_of_isPrefix hbegins heq
      simp [hbegins, heq, hlt] at h
  · intro hbegins
    have hne : s ≠ t := by
      rintro rfl
      exact hbegins (List.prefix_refl s)
    rcases lt_or_gt_of_ne hne with hlt | hgt
    · simp [hbegins, hlt, not_lt_of_gt hlt]
    · simp [hbegins, hgt, not_lt_of_gt hgt]

/-- Without a NUL in the strings, two substrings are compared lexicographically; the
comparisons with a C string go wrong where it is a prefix of the substring, but for the
tests for equality. -/
theorem ordered_iff (hs : 0 ∉ s) (ht : 0 ∉ t) (more : List α) :
    (compareSub s t = .ok (sign s t) ∧ equalSub s t = .ok (decide (s = t)) ∧
      subLessSub s t = .ok (decide (s < t)) ∧
      equalCString s (t ++ 0 :: more) = .ok (decide (s = t)) ∧
      (compareCString s (t ++ 0 :: more) = .ok 0 ↔
        equalCString s (t ++ 0 :: more) = .ok true)) ∧
      ((∃ r, compareCString s (t ++ 0 :: more) = .ok r ∧ r.sign = sign s t) ↔
        ¬(t <+: s ∧ t ≠ s)) ∧
      (subLessCString s (t ++ 0 :: more) = .ok (decide (s < t)) ↔ ¬(t <+: s ∧ t ≠ s)) ∧
      (cStringLessSub (t ++ 0 :: more) s = .ok (decide (t < s)) ↔ ¬t <+: s) ∧
      (Ordered s t more ↔ ¬t <+: s) := by
  have hequal := equalCString_eq hs ht more
  have hcompare := compare_right_iff (s := s) ht more
  have hsub := subLess_right_iff (s := s) ht more
  have hcString := cStringLess_right_iff (s := s) ht more
  refine ⟨⟨compareSub_eq s t, equalSub_eq s t, ?_, hequal, ?_⟩, hcompare, hsub, hcString, ?_⟩
  · rw [subLessSub, compareSub_eq, Fault.ok_bind]
    simp only [sign_lt_zero_iff]
  · rw [hequal, compareCString_eq ht]
    split
    · rename_i hproper
      simp [Ne.symm hproper.2]
    · simp [sign_eq_zero]
  · constructor
    · intro h
      exact hcString.1 h.cStringLess
    · intro hbegins
      have hproper : ¬(t <+: s ∧ t ≠ s) := fun h => hbegins h.1
      exact ⟨hcompare.2 hproper, hequal, hsub.2 hproper, hcString.2 hbegins⟩

end

/-- Two strings that differ in their first character. -/
theorem ordered_iff_example : Ordered [97, 98] [98] [] :=
  (ordered_iff (α := Nat) (s := [97, 98]) (t := [98]) (by decide) (by decide) []).2.2.2.2.2
    (by decide)

/-- The substring "ab" counts as less than the C string "a", and it is not; and the C string
"a" counts as less than the substring "a", and is equal to it as well. -/
theorem not_ordered_prefix :
    (compareCString [97, 98] [97, 0] = .ok (-1) ∧ compareSub [97, 98] [97] = .ok 1) ∧
      (cStringLessSub [97, 0] [97] = .ok true ∧ equalCString [97] [97, 0] = .ok true) ∧
      ¬Ordered [97, 98] [97] [] ∧ ¬Ordered [97] [97] ([] : List Nat) := by
  have hless : cStringLessSub [97, 0] [97, 98] = .ok false := by decide
  have hequal : cStringLessSub [97, 0] [97] = .ok true := by decide
  refine ⟨by decide, by decide, ?_, ?_⟩
  · intro h
    have hlt := h.cStringLess
    rw [show ([97] : List Nat) ++ 0 :: [] = [97, 0] from rfl, hless] at hlt
    exact absurd hlt (by decide)
  · intro h
    have hlt := h.cStringLess
    rw [show ([97] : List Nat) ++ 0 :: [] = [97, 0] from rfl, hequal] at hlt
    exact absurd hlt (by decide)

end LiteMQ.Gears.BasicSubString
