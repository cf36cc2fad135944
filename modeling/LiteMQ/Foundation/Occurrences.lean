import LiteMQ.Foundation.Memory
import Mathlib.Data.Nat.Find

/-!
# Occurrences of one list in another

`OccursAt t s i` says that `t` lies in `s` from the place `i` on.  A search is to return
the first such place that is not before a given one (`IsFirst`) or the last that is not
behind it (`IsLast`), and a number of its own when there is none.  That determines what it
returns (`IsFirst.unique`, `IsLast.unique`).

`search` looks for the first place in the whole list; `scanBack` goes back one place after
the other.  Both are right for what they look for (`search_spec`, `scanBack_spec`).
-/

namespace Occurrences

variable {α : Type}

/-- The needle lies in the list from this place on. -/
def OccursAt (t s : List α) (i : Nat) : Prop := i ≤ s.length ∧ t <+: s.drop i

/-- The place is the least from `pos` on; `none` when there is no such place. -/
def IsFirst (place : Nat → Prop) (pos none r : Nat) : Prop :=
  (pos ≤ r ∧ place r ∧ ∀ i, pos ≤ i → place i → r ≤ i) ∨
    (r = none ∧ ∀ i, pos ≤ i → ¬place i)

/-- The place is the greatest up to `pos`; `none` when there is no such place. -/
def IsLast (place : Nat → Prop) (pos none r : Nat) : Prop :=
  (r ≤ pos ∧ place r ∧ ∀ i, i ≤ pos → place i → i ≤ r) ∨
    (r = none ∧ ∀ i, i ≤ pos → ¬place i)

/-! ## Results are unique -/

section

variable {place : Nat → Prop} {pos none r r' : Nat}

theorem IsFirst.unique (h : IsFirst place pos none r) (h' : IsFirst place pos none r') :
    r = r' := by
  rcases h with ⟨hpos, hplace, hleast⟩ | ⟨rfl, hnone⟩ <;>
    rcases h' with ⟨hpos', hplace', hleast'⟩ | ⟨rfl, hnone'⟩
  · exact Nat.le_antisymm (hleast _ hpos' hplace') (hleast' _ hpos hplace)
  · exact absurd hplace (hnone' _ hpos)
  · exact absurd hplace' (hnone _ hpos')
  · rfl

theorem IsLast.unique (h : IsLast place pos none r) (h' : IsLast place pos none r') :
    r = r' := by
  rcases h with ⟨hpos, hplace, hgreatest⟩ | ⟨rfl, hnone⟩ <;>
    rcases h' with ⟨hpos', hplace', hgreatest'⟩ | ⟨rfl, hnone'⟩
  · exact Nat.le_antisymm (hgreatest' _ hpos hplace) (hgreatest _ hpos' hplace')
  · exact absurd hplace (hnone' _ hpos)
  · exact absurd hplace' (hnone _ hpos')
  · rfl

theorem IsLast.congr {place' : Nat → Prop} (hplace : ∀ i, place i ↔ place' i)
    (h : IsLast place pos none r) : IsLast place' pos none r := by
  have heq : place = place' := funext fun i => propext (hplace i)
  rwa [← heq]

/-- Places behind the last possible one need not be looked at. -/
theorem IsLast.of_min {bound : Nat} (hbound : ∀ i, place i → i ≤ bound)
    (h : IsLast place (min pos bound) none r) : IsLast place pos none r := by
  rcases h with ⟨hpos, hplace, hgreatest⟩ | ⟨hr, hnone⟩
  · refine Or.inl ⟨by omega, hplace, fun i hi hplace => hgreatest i ?_ hplace⟩
    have hle := hbound i hplace
    omega
  · refine Or.inr ⟨hr, fun i hi hplace => hnone i ?_ hplace⟩
    have hle := hbound i hplace
    omega

/-- The last place is also the last of fewer places, if behind each of the former there is one
of the latter. -/
theorem IsLast.restrict_iff {place' : Nat → Prop} (hsub : ∀ i, place' i → place i)
    (hnone : ¬place none) (h : IsLast place pos none r) :
    IsLast place' pos none r ↔ ∀ i ≤ pos, place i → ∃ j ≤ pos, i ≤ j ∧ place' j := by
  rcases h with ⟨hpos, hplace, hgreatest⟩ | ⟨rfl, hno⟩
  · constructor
    · rintro (⟨-, hplace', -⟩ | ⟨rfl, -⟩) i hi hpi
      · exact ⟨r, hpos, hgreatest i hi hpi, hplace'⟩
      · exact absurd hplace hnone
    · intro hbehind
      obtain ⟨j, hj, hle, hplace'⟩ := hbehind r hpos hplace
      obtain rfl : j = r := Nat.le_antisymm (hgreatest j hj (hsub j hplace')) hle
      exact Or.inl ⟨hpos, hplace', fun i hi h => hgreatest i hi (hsub i h)⟩
  · refine iff_of_true (Or.inr ⟨rfl, fun i hi h => hno i hi (hsub i h)⟩) ?_
    intro i hi hpi
    exact absurd hpi (hno i hi)

end

/-! ## Places -/

theorem OccursAt.add_le {t s : List α} {i : Nat} (h : OccursAt t s i) :
    i + t.length ≤ s.length := by
  have hle := h.2.length_le
  rw [List.length_drop] at hle
  have hi := h.1
  omega

theorem OccursAt.of_isPrefix {text t s : List α} {i : Nat} (htext : text <+: t)
    (h : OccursAt t s i) : OccursAt text s i := ⟨h.1, htext.trans h.2⟩

theorem occursAt_nil {s : List α} {i : Nat} : OccursAt [] s i ↔ i ≤ s.length :=
  ⟨fun h => h.1, fun h => ⟨h, List.nil_prefix⟩⟩

theorem occursAt_singleton {ch : α} {i : Nat} : OccursAt [ch] s i ↔ s[i]? = some ch := by
  constructor
  · intro h
    have hlt := h.add_le
    rw [List.length_singleton] at hlt
    obtain ⟨rest, hrest⟩ := h.2
    rw [← List.head?_drop, ← hrest]
    rfl
  · intro h
    obtain ⟨hlt, hget⟩ := List.getElem?_eq_some_iff.1 h
    refine ⟨Nat.le_of_lt hlt, s.drop (i + 1), ?_⟩
    rw [← hget, List.singleton_append, List.getElem_cons_drop]

theorem occursAt_iff_take {t s : List α} (ht : t ≠ []) {i : Nat} :
    OccursAt t s i ↔ (s.drop i).take t.length = t := by
  constructor
  · intro h
    exact (List.prefix_iff_eq_take.1 h.2).symm
  · intro h
    refine ⟨?_, List.prefix_iff_eq_take.2 h.symm⟩
    by_contra hi
    rw [List.drop_eq_nil_of_le (by omega), List.take_nil] at h
    exact ht h.symm

/-- Places in what is left behind the first elements. -/
theorem occursAt_drop {t s : List α} {pos i : Nat} (hpos : pos ≤ s.length) :
    OccursAt t (s.drop pos) i ↔ OccursAt t s (pos + i) := by
  unfold OccursAt
  rw [List.drop_drop, List.length_drop]
  constructor
  · rintro ⟨hi, h⟩
    exact ⟨by omega, h⟩
  · rintro ⟨hi, h⟩
    exact ⟨by omega, h⟩

/-- A result for what is left is one for the whole list. -/
theorem IsFirst.of_drop {t s : List α} {pos none i : Nat} (hpos : pos ≤ s.length)
    (hne : OccursAt t (s.drop pos) i)
    (hleast : ∀ j, OccursAt t (s.drop pos) j → i ≤ j) :
    IsFirst (OccursAt t s) pos none (pos + i) := by
  refine Or.inl ⟨Nat.le_add_right _ _, (occursAt_drop hpos).1 hne, fun j hj hoccurs => ?_⟩
  obtain ⟨k, rfl⟩ := Nat.exists_eq_add_of_le hj
  exact Nat.add_le_add_left (hleast k ((occursAt_drop hpos).2 hoccurs)) _

theorem isFirst_none_of_drop {t s : List α} {pos none : Nat} (hpos : pos ≤ s.length)
    (h : ∀ j, ¬OccursAt t (s.drop pos) j) : IsFirst (OccursAt t s) pos none none := by
  refine Or.inr ⟨rfl, fun j hj hoccurs => ?_⟩
  obtain ⟨k, rfl⟩ := Nat.exists_eq_add_of_le hj
  exact h k ((occursAt_drop hpos).2 hoccurs)

/-! ## Forwards -/

section

variable [DecidableEq α]

/-- The first place of the needle, or the end. -/
def search : List α → List α → Nat
  | [], _ => 0
  | x :: s, t => if t <+: x :: s then 0 else search s t + 1

/-- The search returns the least place, or the end when there is none. -/
theorem search_spec {t : List α} (ht : t ≠ []) (s : List α) :
    (OccursAt t s (search s t) ∧ ∀ i, OccursAt t s i → search s t ≤ i) ∨
      (search s t = s.length ∧ ∀ i, ¬OccursAt t s i) := by
  induction s with
  | nil =>
      refine Or.inr ⟨rfl, fun i hoccurs => ?_⟩
      have hle := hoccurs.add_le
      have hpos : 0 < t.length := List.length_pos_iff.2 ht
      rw [List.length_nil] at hle
      omega
  | cons x s ih =>
      rw [search]
      split
      · rename_i hbegins
        exact Or.inl ⟨⟨Nat.zero_le _, hbegins⟩, fun i _ => Nat.zero_le i⟩
      · rename_i hbegins
        have hnext : ∀ i, OccursAt t (x :: s) (i + 1) ↔ OccursAt t s i := by
          intro i
          unfold OccursAt
          rw [List.length_cons, List.drop_succ_cons, Nat.succ_le_succ_iff]
        have hzero : ¬OccursAt t (x :: s) 0 := fun h => hbegins h.2
        rcases ih with ⟨hoccurs, hleast⟩ | ⟨hend, hnone⟩
        · refine Or.inl ⟨(hnext _).2 hoccurs, fun i hi => ?_⟩
          cases i with
          | zero => exact absurd hi hzero
          | succ i => exact Nat.succ_le_succ (hleast i ((hnext i).1 hi))
        · refine Or.inr ⟨by rw [hend]; rfl, fun i hi => ?_⟩
          cases i with
          | zero => exact hzero hi
          | succ i => exact hnone i ((hnext i).1 hi)

end

/-! ## Backwards -/

/-- Try one place after the other, back to the first one. -/
def scanBack (test : Nat → Except Fault Bool) (none : Nat) : Nat → Except Fault Nat
  | 0 => do
      let found ← test 0
      .ok (if found then 0 else none)
  | place + 1 => do
      let found ← test (place + 1)
      if found then .ok (place + 1) else scanBack test none place

/-- Going back ends at the greatest place. -/
theorem scanBack_spec {test : Nat → Except Fault Bool} {place : Nat → Prop}
    [DecidablePred place] {pos : Nat} (htest : ∀ i ≤ pos, test i = .ok (decide (place i)))
    (none : Nat) : ∃ r, scanBack test none pos = .ok r ∧ IsLast place pos none r := by
  induction pos with
  | zero =>
      rw [scanBack, htest 0 (Nat.le_refl 0), Fault.ok_bind]
      by_cases h : place 0
      · refine ⟨0, by simp [h], Or.inl ⟨Nat.le_refl 0, h, fun i hi _ => hi⟩⟩
      · refine ⟨none, by simp [h], Or.inr ⟨rfl, fun i hi => ?_⟩⟩
        rwa [Nat.le_zero.1 hi]
  | succ pos ih =>
      rw [scanBack, htest (pos + 1) (Nat.le_refl _), Fault.ok_bind]
      by_cases h : place (pos + 1)
      · exact ⟨pos + 1, by simp [h], Or.inl ⟨Nat.le_refl _, h, fun i hi _ => hi⟩⟩
      · obtain ⟨r, hr, hlast⟩ := ih (fun i hi => htest i (Nat.le_succ_of_le hi))
        refine ⟨r, by simp [h, hr], ?_⟩
        have hcases : ∀ i, i ≤ pos + 1 → place i → i ≤ pos := by
          intro i hi hplace
          rcases Nat.lt_or_eq_of_le hi with hlt | rfl
          · exact Nat.le_of_lt_succ hlt
          · exact absurd hplace h
        rcases hlast with ⟨hpos, hplace, hgreatest⟩ | ⟨hnone, hno⟩
        · exact Or.inl ⟨Nat.le_succ_of_le hpos, hplace,
            fun i hi hplace => hgreatest i (hcases i hi hplace) hplace⟩
        · exact Or.inr ⟨hnone, fun i hi hplace => hno i (hcases i hi hplace) hplace⟩

end Occurrences
