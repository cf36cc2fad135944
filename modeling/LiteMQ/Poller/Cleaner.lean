import LiteMQ.Foundation.TransitionSystem
import Mathlib.Data.Fintype.Basic
import Mathlib.Logic.Function.Basic

/-!
# `DescriptorHandlerCleaner`

The cleaner drops a descriptor handler only when all threads have called
`release`.  `release_array_` records who did in the current epoch and
`unreleased_count_` how many did not; the thread that takes the count to zero
resets both and swaps the two lists of handlers.

`release` takes no lock but for the swap, so its atomic operations are the
steps: `releaseStep` performs the next one of a thread, and `ReleasePc` is
where in `release` the thread stands.  Thread `i` calls `release(i)` and
nothing else.
-/

namespace LiteMQ

/-- Where a thread stands in `release(id)`: the operation that it does next. -/
inductive ReleasePc
  /-- not in `release` -/
  | idle
  /-- `release_array_[id]++ == 0` -/
  | increment
  /-- `unreleased_count_-- == 1` -/
  | decrementCount
  /-- `(*it)-- == 1` at index `i`, or the swap of the lists behind the last one -/
  | reset (i : Nat)
  /-- `unreleased_count_ += 1` for index `i` -/
  | credit (i : Nat)
  /-- `release_array_[id]-- == 1` -/
  | revert
  /-- `unreleased_count_ += 1` after the revert -/
  | revertCount
  deriving DecidableEq, Repr

/-- The cleaner of `n` threads for objects of type `Obj`, with the position of
every thread in `release`. -/
structure DescriptorHandlerCleaner (n : Nat) (Obj : Type*) where
  releaseArray : Fin n → Int
  unreleasedCount : Int
  free : List Obj
  freeCandidates : List Obj
  pc : Fin n → ReleasePc

namespace DescriptorHandlerCleaner

open Function

variable {n : Nat} {Obj : Type*}

/-- The constructor. -/
def initial (n : Nat) (Obj : Type*) : DescriptorHandlerCleaner n Obj where
  releaseArray := fun _ => 0
  unreleasedCount := n
  free := []
  freeCandidates := []
  pc := fun _ => .idle

/-- `push` -/
def push (c : DescriptorHandlerCleaner n Obj) (obj : Obj) : DescriptorHandlerCleaner n Obj :=
  { c with freeCandidates := c.freeCandidates ++ [obj] }

/-- Thread `i` goes on to `next`. -/
def goto (c : DescriptorHandlerCleaner n Obj) (i : Fin n) (next : ReleasePc) :
    DescriptorHandlerCleaner n Obj :=
  { c with pc := update c.pc i next }

/-- Add `delta` to `release_array_[i]`. -/
def addToSlot (c : DescriptorHandlerCleaner n Obj) (i : Fin n) (delta : Int) :
    DescriptorHandlerCleaner n Obj :=
  { c with releaseArray := update c.releaseArray i (c.releaseArray i + delta) }

/-- Add `delta` to `unreleased_count_`. -/
def addToCount (c : DescriptorHandlerCleaner n Obj) (delta : Int) :
    DescriptorHandlerCleaner n Obj :=
  { c with unreleasedCount := c.unreleasedCount + delta }

/-- The swap of the lists; the old `free_` is what `clear_list` drops. -/
def swapLists (c : DescriptorHandlerCleaner n Obj) : DescriptorHandlerCleaner n Obj :=
  { c with free := c.freeCandidates, freeCandidates := [] }

/-- The next atomic operation of `release(i)`; an idle thread enters it. -/
def releaseStep (c : DescriptorHandlerCleaner n Obj) (i : Fin n) :
    DescriptorHandlerCleaner n Obj :=
  match c.pc i with
  | .idle => if c.releaseArray i = 0 then c.goto i .increment else c
  | .increment =>
      (c.addToSlot i 1).goto i (if c.releaseArray i = 0 then .decrementCount else .revert)
  | .decrementCount =>
      (c.addToCount (-1)).goto i (if c.unreleasedCount = 1 then .reset 0 else .idle)
  | .reset j =>
      if h : j < n then
        (c.addToSlot ⟨j, h⟩ (-1)).goto i
          (if c.releaseArray ⟨j, h⟩ = 1 then .credit j else .reset (j + 1))
      else c.swapLists.goto i .idle
  | .credit j => (c.addToCount 1).goto i (.reset (j + 1))
  | .revert =>
      (c.addToSlot i (-1)).goto i (if c.releaseArray i = 1 then .revertCount else .idle)
  | .revertCount => (c.addToCount 1).goto i .idle

/-- The objects that the next operation of `release(i)` drops. -/
def cleared (c : DescriptorHandlerCleaner n Obj) (i : Fin n) : List Obj :=
  match c.pc i with
  | .reset j => if j < n then [] else c.free
  | _ => []

inductive Action (n : Nat) (Obj : Type*)
  | push (obj : Obj)
  | release (i : Fin n)

/-- One step of the cleaner. -/
def step (c : DescriptorHandlerCleaner n Obj) : Action n Obj → Option (DescriptorHandlerCleaner n Obj)
  | .push obj => some (c.push obj)
  | .release i => some (c.releaseStep i)

/-- The cleaner of `n` threads under any interleaving of their operations. -/
def cleaner (n : Nat) (Obj : Type*) :
    TransitionSystem (DescriptorHandlerCleaner n Obj) (Action n Obj) :=
  ⟨initial n Obj, step⟩

/-! The fields after each operation. -/

section Fields

variable (c : DescriptorHandlerCleaner n Obj) (i : Fin n) (next : ReleasePc) (delta : Int)

@[simp] theorem goto_releaseArray : (c.goto i next).releaseArray = c.releaseArray := rfl
@[simp] theorem goto_unreleasedCount : (c.goto i next).unreleasedCount = c.unreleasedCount := rfl
@[simp] theorem goto_free : (c.goto i next).free = c.free := rfl
@[simp] theorem goto_freeCandidates : (c.goto i next).freeCandidates = c.freeCandidates := rfl
@[simp] theorem goto_pc : (c.goto i next).pc = update c.pc i next := rfl
@[simp] theorem addToSlot_releaseArray : (c.addToSlot i delta).releaseArray =
    update c.releaseArray i (c.releaseArray i + delta) := rfl
@[simp] theorem addToSlot_unreleasedCount :
    (c.addToSlot i delta).unreleasedCount = c.unreleasedCount := rfl
@[simp] theorem addToSlot_free : (c.addToSlot i delta).free = c.free := rfl
@[simp] theorem addToSlot_freeCandidates :
    (c.addToSlot i delta).freeCandidates = c.freeCandidates := rfl
@[simp] theorem addToSlot_pc : (c.addToSlot i delta).pc = c.pc := rfl
@[simp] theorem addToCount_releaseArray :
    (c.addToCount delta).releaseArray = c.releaseArray := rfl
@[simp] theorem addToCount_unreleasedCount :
    (c.addToCount delta).unreleasedCount = c.unreleasedCount + delta := rfl
@[simp] theorem addToCount_free : (c.addToCount delta).free = c.free := rfl
@[simp] theorem addToCount_freeCandidates :
    (c.addToCount delta).freeCandidates = c.freeCandidates := rfl
@[simp] theorem addToCount_pc : (c.addToCount delta).pc = c.pc := rfl
@[simp] theorem swapLists_releaseArray : c.swapLists.releaseArray = c.releaseArray := rfl
@[simp] theorem swapLists_unreleasedCount :
    c.swapLists.unreleasedCount = c.unreleasedCount := rfl
@[simp] theorem swapLists_pc : c.swapLists.pc = c.pc := rfl

end Fields

/-- `release(i)` moves no other thread. -/
theorem releaseStep_pc_of_ne (c : DescriptorHandlerCleaner n Obj) {i k : Fin n} (hne : k ≠ i) :
    (c.releaseStep i).pc k = c.pc k := by
  unfold releaseStep
  cases hpc : c.pc i with
  | idle =>
      dsimp only
      split <;> simp [hne]
  | reset j =>
      dsimp only
      split <;> simp [hne]
  | _ => simp [hne]

/-- `release` adds nothing to the lists. -/
theorem mem_of_mem_releaseStep {c : DescriptorHandlerCleaner n Obj} {i : Fin n} {x : Obj}
    (hx : x ∈ (c.releaseStep i).free ++ (c.releaseStep i).freeCandidates) :
    x ∈ c.free ++ c.freeCandidates := by
  unfold releaseStep at hx
  cases hpc : c.pc i with
  | idle =>
      simp only [hpc] at hx
      split at hx <;> exact hx
  | reset j =>
      simp only [hpc] at hx
      split at hx
      · exact hx
      · exact List.mem_append_right _ (by simpa [swapLists] using hx)
  | _ =>
      simp only [hpc] at hx
      exact hx

/-- What is dropped was in `free_`. -/
theorem mem_free_of_mem_cleared {c : DescriptorHandlerCleaner n Obj} {i : Fin n} {x : Obj}
    (hx : x ∈ c.cleared i) : x ∈ c.free := by
  unfold cleared at hx
  split at hx
  · split at hx
    · cases hx
    · exact hx
  · cases hx

end DescriptorHandlerCleaner
end LiteMQ
