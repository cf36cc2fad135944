import Mathlib.Logic.Function.Basic

/-!
# Maps that index a set by a key

A partial map from keys to names is an index of the named values when it finds under each
key the member that has this key, and nothing under any other.  So no two members have one
key.  What changes one value at a time keeps an index in order when it enters the value as it
becomes a member, and strikes it out as it ceases to be one.
-/

variable {Key : Type*} {Name : Type*} {Value : Type*}

/-- `index` finds the members among `values`, each under its key. -/
def Indexes (index : Key → Option Name) (key : Value → Key) (member : Value → Prop)
    (values : Name → Value) : Prop :=
  ∀ k name, index k = some name ↔ key (values name) = k ∧ member (values name)

namespace Indexes

open Function

variable {index : Key → Option Name} {key : Value → Key} {member : Value → Prop}
  {values : Name → Value} {name other : Name} {value : Value}

theorem empty (hnone : ∀ name, ¬member (values name)) :
    Indexes (fun _ => none) key member values := by
  intro k name
  simp [hnone name]

/-- A member is found under its key. -/
theorem find (h : Indexes index key member values) (hmember : member (values name)) :
    index (key (values name)) = some name :=
  (h _ name).mpr ⟨rfl, hmember⟩

/-- No two members have the same key. -/
theorem eq_of_key_eq (h : Indexes index key member values) (hname : member (values name))
    (hother : member (values other)) (hkey : key (values name) = key (values other)) :
    name = other := by
  have hfound := h.find hname
  rw [hkey, h.find hother] at hfound
  exact (Option.some.inj hfound).symm

/-- What is found under a key has this key. -/
theorem key_of_find (h : Indexes index key member values) {k : Key} (hk : index k = some name) :
    key (values name) = k :=
  ((h k name).mp hk).1

theorem member_of_find (h : Indexes index key member values) {k : Key}
    (hk : index k = some name) : member (values name) :=
  ((h k name).mp hk).2

/-- Nothing is found under the key of what is no member, unless it is that of another one. -/
theorem ne_of_not_member (h : Indexes index key member values) (hnot : ¬member (values name))
    (k : Key) : index k ≠ some name :=
  fun hk => hnot (h.member_of_find hk)

variable [DecidableEq Name]

/-- A value that stays a member with its key, or stays outside. -/
theorem keep (h : Indexes index key member values)
    (hkey : member value → key value = key (values name))
    (hmember : member value ↔ member (values name)) :
    Indexes index key member (update values name value) := by
  intro k other
  obtain rfl | hne := eq_or_ne other name
  · rw [update_self, h k other, hmember]
    refine and_congr_left fun hin => ?_
    rw [hkey (hmember.mpr hin)]
  · rw [update_of_ne hne]
    exact h k other

variable [DecidableEq Key]

/-- A value becomes a member under a key that no member has. -/
theorem insert (h : Indexes index key member values) (value : Value)
    (hfree : index (key value) = none) (hnot : ¬member (values name)) (hmember : member value) :
    Indexes (update index (key value) (some name)) key member (update values name value) := by
  intro k other
  obtain rfl | hne := eq_or_ne other name
  · rw [update_self]
    obtain rfl | hk := eq_or_ne k (key value)
    · simp [hmember]
    · rw [update_of_ne hk]
      exact ⟨fun hfound => absurd hfound (h.ne_of_not_member hnot k),
        fun hnew => absurd hnew.1.symm hk⟩
  · rw [update_of_ne hne]
    obtain rfl | hk := eq_or_ne k (key value)
    · rw [update_self]
      refine ⟨fun hname => absurd (Option.some.inj hname).symm hne, fun hold => ?_⟩
      rw [(h _ other).mpr hold] at hfree
      cases hfree
    · rw [update_of_ne hk]
      exact h k other

/-- A member ceases to be one. -/
theorem erase (h : Indexes index key member values) (hin : member (values name))
    (hout : ¬member value) :
    Indexes (update index (key (values name)) none) key member (update values name value) := by
  intro k other
  obtain rfl | hne := eq_or_ne other name
  · rw [update_self]
    obtain rfl | hk := eq_or_ne k (key (values other))
    · simp [hout]
    · rw [update_of_ne hk]
      refine ⟨fun hfound => absurd (h.key_of_find hfound).symm hk, fun hnew => absurd hnew.2 hout⟩
  · rw [update_of_ne hne]
    obtain rfl | hk := eq_or_ne k (key (values name))
    · rw [update_self]
      refine ⟨fun hnone => (by cases hnone), fun hold => ?_⟩
      exact absurd (h.eq_of_key_eq hold.2 hin hold.1) hne
    · rw [update_of_ne hk]
      exact h k other

end Indexes
