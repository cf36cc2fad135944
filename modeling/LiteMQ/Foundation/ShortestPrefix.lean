import Mathlib.Data.List.Infix

/-!
# The shortest prefix that reaches a goal

A loop that takes elements from the front of a list until some condition on
what it took holds, takes the shortest non-empty prefix with the condition.
-/

namespace LiteMQ

variable {α : Type*} {reaches : List α → Prop} {p l : List α}

/-- `p` is the shortest non-empty prefix of `l` that `reaches`. -/
structure IsShortestPrefix (reaches : List α → Prop) (p l : List α) : Prop where
  isPrefix : p <+: l
  ne_nil : p ≠ []
  reaching : reaches p
  shortest : ∀ q, q <+: l → q ≠ [] → reaches q → p <+: q

namespace IsShortestPrefix

/-- The first element is enough. -/
theorem singleton {x : α} (h : reaches [x]) : IsShortestPrefix reaches [x] (x :: l) where
  isPrefix := ⟨l, rfl⟩
  ne_nil := List.cons_ne_nil x []
  reaching := h
  shortest := by
    intro q hq hne _
    obtain ⟨y, q, rfl⟩ := List.exists_cons_of_ne_nil hne
    obtain ⟨rfl, -⟩ := List.cons_prefix_cons.mp hq
    exact ⟨q, rfl⟩

/-- The first element is not enough, so the search goes on behind it. -/
theorem cons {x : α} (hx : ¬ reaches [x])
    (h : IsShortestPrefix (fun q => reaches (x :: q)) p l) :
    IsShortestPrefix reaches (x :: p) (x :: l) where
  isPrefix := List.cons_prefix_cons.mpr ⟨rfl, h.isPrefix⟩
  ne_nil := List.cons_ne_nil x p
  reaching := h.reaching
  shortest := by
    intro q hq hne hreaches
    obtain ⟨y, q, rfl⟩ := List.exists_cons_of_ne_nil hne
    obtain ⟨rfl, htail⟩ := List.cons_prefix_cons.mp hq
    have hrest : q ≠ [] := by
      rintro rfl
      exact hx hreaches
    exact List.cons_prefix_cons.mpr ⟨rfl, h.shortest q htail hrest hreaches⟩

/-- What is shortest for one condition is shortest for another that agrees with
it on the prefixes that matter. -/
theorem congr {reaches' : List α → Prop} (h : IsShortestPrefix reaches p l)
    (hsame : reaches' p) (hback : ∀ q, q <+: p → q ≠ [] → reaches' q → reaches q) :
    IsShortestPrefix reaches' p l where
  isPrefix := h.isPrefix
  ne_nil := h.ne_nil
  reaching := hsame
  shortest := by
    intro q hq hne hreaches
    rcases List.prefix_or_prefix_of_prefix h.isPrefix hq with hle | hle
    · exact hle
    · exact h.shortest q hq hne (hback q hle hne hreaches)

end IsShortestPrefix
end LiteMQ
