import Mathlib.Tactic.ByContra

/-!
# Where one item is

A ledger counts how often an item occurs in each place.  An item is owned when
it is in exactly one place, once.  Adding it where it was nowhere gives it an owner,
moving it from place to place keeps it owned, and removing the only occurrence loses
it.  No move brings it back.
-/

namespace Ledger

variable {Place : Type*} {occ occ' : Place → Nat} {p q : Place}

/-- The item occurs once, in one place. -/
def InOnePlace (occ : Place → Nat) : Prop := ∃ p, occ p = 1 ∧ ∀ q, q ≠ p → occ q = 0

/-- The item occurs nowhere. -/
def Nowhere (occ : Place → Nat) : Prop := ∀ p, occ p = 0

/-- Occurrences move between `p` and `q` only, and their number is kept. -/
structure Moved (occ occ' : Place → Nat) (p q : Place) : Prop where
  total : occ' p + occ' q = occ p + occ q
  other : ∀ r, r ≠ p → r ≠ q → occ' r = occ r

/-- All occurrences in `p` are removed, and nothing else changes. -/
structure Removed (occ occ' : Place → Nat) (p : Place) : Prop where
  gone : occ' p = 0
  other : ∀ r, r ≠ p → occ' r = occ r

/-- An occurrence is added in `p`, and nothing else changes. -/
structure Added (occ occ' : Place → Nat) (p : Place) : Prop where
  one : occ' p = occ p + 1
  other : ∀ r, r ≠ p → occ' r = occ r

theorem InOnePlace.not_nowhere (h : InOnePlace occ) : ¬ Nowhere occ := by
  intro hnowhere
  obtain ⟨p, hone, -⟩ := h
  rw [hnowhere p] at hone
  cases hone

/-- An item that occurs in `p` is nowhere else. -/
theorem InOnePlace.eq_zero_of_ne (h : InOnePlace occ) (hp : occ p ≠ 0) (hne : q ≠ p) :
    occ q = 0 := by
  obtain ⟨r, -, hzero⟩ := h
  have hr : p = r := by
    by_contra hpr
    exact hp (hzero p hpr)
  exact hzero q (hr ▸ hne)

/-- An item occurs no more than once in any place. -/
theorem InOnePlace.le_one (h : InOnePlace occ) (p : Place) : occ p ≤ 1 := by
  obtain ⟨q, hone, hzero⟩ := h
  by_cases hp : p = q
  · rw [hp]
    exact Nat.le_of_eq hone
  · rw [hzero p hp]
    exact Nat.zero_le 1

/-- An item that was nowhere is where it is added. -/
theorem Added.inOnePlace (hadded : Added occ occ' p) (h : Nowhere occ) : InOnePlace occ' := by
  refine ⟨p, ?_, fun q hq => ?_⟩
  · rw [hadded.one, h p]
  · rw [hadded.other q hq, h q]

theorem Moved.nowhere (hmoved : Moved occ occ' p q) (h : Nowhere occ) : Nowhere occ' := by
  have htotal := hmoved.total
  rw [h p, h q] at htotal
  intro r
  by_cases hp : r = p
  · subst hp
    omega
  · by_cases hq : r = q
    · subst hq
      omega
    · rw [hmoved.other r hp hq, h r]

theorem Moved.inOnePlace (hmoved : Moved occ occ' p q) (hpq : p ≠ q) (h : InOnePlace occ) :
    InOnePlace occ' := by
  have htotal := hmoved.total
  by_cases hsource : occ p + occ q = 0
  · -- the item is in a third place
    obtain ⟨r, hone, hzero⟩ := h
    have hrp : r ≠ p := by
      rintro rfl
      omega
    have hrq : r ≠ q := by
      rintro rfl
      omega
    refine ⟨r, by rw [hmoved.other r hrp hrq, hone], fun q' hq' => ?_⟩
    by_cases hp : q' = p
    · subst hp
      omega
    · by_cases hq : q' = q
      · subst hq
        omega
      · rw [hmoved.other q' hp hq, hzero q' hq']
  · -- the item is in `p` or `q`, before and after
    have hother : ∀ r, r ≠ p → r ≠ q → occ' r = 0 := by
      intro r hp hq
      rw [hmoved.other r hp hq]
      by_cases hzero : occ p = 0
      · exact h.eq_zero_of_ne (show occ q ≠ 0 by omega) hq
      · exact h.eq_zero_of_ne hzero hp
    have hone : occ p + occ q = 1 := by
      obtain ⟨r, hone, hzero⟩ := h
      by_cases hp : r = p
      · subst hp
        rw [hone, hzero q hpq.symm]
      · by_cases hq : r = q
        · subst hq
          rw [hone, hzero p hpq]
        · rw [hzero p (Ne.symm hp), hzero q (Ne.symm hq)] at hsource
          exact absurd rfl hsource
    by_cases hzero : occ' p = 0
    · refine ⟨q, by omega, fun r hq => ?_⟩
      by_cases hp : r = p
      · rw [hp, hzero]
      · exact hother r hp hq
    · refine ⟨p, by omega, fun r hp => ?_⟩
      by_cases hq : r = q
      · subst hq
        omega
      · exact hother r hp hq

theorem Removed.nowhere (hremoved : Removed occ occ' p) (h : Nowhere occ) : Nowhere occ' := by
  intro r
  by_cases hp : r = p
  · rw [hp, hremoved.gone]
  · rw [hremoved.other r hp, h r]

/-- Removing the item from the place where it is loses it. -/
theorem Removed.nowhere_of_inOnePlace (hremoved : Removed occ occ' p) (hp : occ p ≠ 0)
    (h : InOnePlace occ) : Nowhere occ' := by
  intro r
  by_cases hr : r = p
  · rw [hr, hremoved.gone]
  · rw [hremoved.other r hr, h.eq_zero_of_ne hp hr]

/-- Removing what is not there changes nothing. -/
theorem Removed.eq_of_eq_zero (hremoved : Removed occ occ' p) (hp : occ p = 0) : occ' = occ := by
  funext r
  by_cases hr : r = p
  · rw [hr, hremoved.gone, hp]
  · exact hremoved.other r hr

end Ledger
