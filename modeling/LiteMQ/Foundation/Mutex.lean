import Mathlib.Logic.Function.Basic

/-!
# A mutex and the threads inside

The state of a thread says whether it is inside the section that a mutex protects.
`Held` is the invariant that ties the two together: the owner of the mutex is the
thread inside.  A step of one thread keeps it when the thread stays where it is, takes
the free mutex on its way in, or releases it on its way out.
-/

namespace Mutex

variable {T S : Type*} {inside : S → Bool} {owner : Option T} {threads : T → S} {t u : T}

/-- The owner of the mutex is the thread that is inside. -/
def Held (inside : S → Bool) (owner : Option T) (threads : T → S) : Prop :=
  ∀ t, owner = some t ↔ inside (threads t) = true

/-- No two threads are inside together. -/
theorem Held.eq_of_inside (h : Held inside owner threads) (ht : inside (threads t) = true)
    (hu : inside (threads u) = true) : t = u := by
  have howner := (h t).mpr ht
  rw [(h u).mpr hu] at howner
  exact (Option.some.inj howner).symm

/-- While the mutex is free, nobody is inside. -/
theorem Held.outside_of_free (h : Held inside none threads) (t : T) :
    inside (threads t) = false := by
  have hfree := h t
  simpa using hfree

/-- Beside a thread that is inside, nobody is. -/
theorem Held.outside_of_inside (h : Held inside owner threads) (ht : inside (threads t) = true)
    (hu : u ≠ t) : inside (threads u) = false := by
  by_contra hother
  rw [Bool.not_eq_false] at hother
  exact hu (h.eq_of_inside hother ht)

variable [DecidableEq T] {next : S}

/-- A step of a thread beside which nobody is inside: it owns the mutex if it is inside. -/
theorem held_update (hothers : ∀ u, u ≠ t → inside (threads u) = false) (next : S) :
    Held inside (if inside next then some t else none) (Function.update threads t next) := by
  intro u
  by_cases hu : u = t
  · subst hu
    rw [Function.update_self]
    cases inside next <;> simp
  · rw [Function.update_of_ne hu, hothers u hu]
    cases inside next <;> simp [Ne.symm hu]

/-- A step of a thread that does not cross the border of the section. -/
theorem Held.keep (h : Held inside owner threads) (hnext : inside next = inside (threads t)) :
    Held inside owner (Function.update threads t next) := by
  refine (Function.forall_update_iff threads
    fun u thread => owner = some u ↔ inside thread = true).mpr ⟨?_, fun u _ => h u⟩
  rw [hnext]
  exact h t

/-- The step of a thread into the section. -/
theorem Held.take (h : Held inside none threads) (t : T) (hnext : inside next = true) :
    Held inside (some t) (Function.update threads t next) := by
  have hupdate := held_update (t := t) (fun u _ => h.outside_of_free u) next
  rwa [if_pos hnext] at hupdate

/-- The step of the owner out of the section. -/
theorem Held.release (h : Held inside (some t) threads) (hnext : inside next = false) :
    Held inside none (Function.update threads t next) := by
  have hupdate := held_update (fun u hu => h.outside_of_inside ((h t).mp rfl) hu) next
  rwa [hnext, if_neg Bool.false_ne_true] at hupdate

end Mutex
