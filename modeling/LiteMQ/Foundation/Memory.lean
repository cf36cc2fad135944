import Mathlib.Data.List.Basic
import Mathlib.Order.Basic

/-!
# Faults and bounds-checked buffers

C++ leaves a program without meaning after a null dereference or an access
outside an object, and a failed `assert` ends it.  Modelled functions that can
get there return `Except Fault`, so "no fault" is a statement about them.

A buffer is the list of its elements; `load`, `store` and `storeRange` check
their bounds.  `copyDown` is the element-by-element forward copy inside one
buffer, and `copyDown_eq_ok` says what it leaves behind when the target lies
before the source.
-/

/-- The ways in which a modelled function stops being meaningful. -/
inductive Fault
  | assertionFailed
  | nullDereference
  | outOfBounds
  | loopBound
  deriving DecidableEq, Repr

/-- Continue only under `condition`. -/
def ensure (condition : Prop) [Decidable condition] (fault : Fault) : Except Fault Unit :=
  if condition then .ok () else .error fault

@[simp] theorem ensure_of_true {condition : Prop} [Decidable condition] (fault : Fault)
    (h : condition) : ensure condition fault = .ok () := if_pos h

@[simp] theorem ensure_of_false {condition : Prop} [Decidable condition] (fault : Fault)
    (h : ¬ condition) : ensure condition fault = .error fault := if_neg h

universe u

@[simp] theorem Fault.ok_bind {α β : Type u} (a : α) (f : α → Except Fault β) :
    (Except.ok a >>= f) = f a := rfl

@[simp] theorem Fault.error_bind {α β : Type u} (fault : Fault) (f : α → Except Fault β) :
    ((Except.error fault : Except Fault α) >>= f) = .error fault := rfl

/-- A computation in two parts succeeds when both do. -/
theorem Fault.bind_eq_ok {α β : Type u} {x : Except Fault α} {f : α → Except Fault β} {b : β} :
    (x >>= f) = .ok b ↔ ∃ a, x = .ok a ∧ f a = .ok b := by
  cases x with
  | error fault => simp
  | ok a => simp

namespace Buffer

variable {α : Type u}

/-- Read one element. -/
def load (buf : List α) (i : Nat) : Except Fault α :=
  match buf[i]? with
  | some x => .ok x
  | none => .error .outOfBounds

/-- Overwrite one element. -/
def store (buf : List α) (i : Nat) (x : α) : Except Fault (List α) :=
  if i < buf.length then .ok (buf.set i x) else .error .outOfBounds

/-- Overwrite the elements from `i` on by `xs`. -/
def storeRange (buf : List α) (i : Nat) (xs : List α) : Except Fault (List α) :=
  if i + xs.length ≤ buf.length then .ok (buf.take i ++ xs ++ buf.drop (i + xs.length))
  else .error .outOfBounds

/-- The elements with index in `[first, last)`. -/
def slice (buf : List α) (first last : Nat) : List α :=
  (buf.drop first).take (last - first)

/-- `resize`: cut the buffer or fill it up with `x`. -/
def resize (buf : List α) (size : Nat) (x : α) : List α :=
  buf.take size ++ List.replicate (size - buf.length) x

/-- Copy `count` elements one by one from `source` on to `target` on. -/
def copyDown : List α → Nat → Nat → Nat → Except Fault (List α)
  | buf, _, _, 0 => .ok buf
  | buf, source, target, count + 1 => do
      let x ← load buf source
      let buf ← store buf target x
      copyDown buf (source + 1) (target + 1) count

theorem load_eq_ok {buf : List α} {i : Nat} (h : i < buf.length) :
    load buf i = .ok buf[i] := by
  simp [load, h]

theorem store_eq_ok {buf : List α} {i : Nat} (h : i < buf.length) (x : α) :
    store buf i x = .ok (buf.set i x) := by
  simp [store, h]

theorem load_cons (x : α) (behind : List α) : load (x :: behind) 0 = .ok x := rfl

/-- The element behind a known part of a buffer. -/
theorem load_append (before : List α) (x : α) (behind : List α) :
    load (before ++ x :: behind) before.length = .ok x := by
  simp [load]

theorem store_append (before : List α) (x y : α) (behind : List α) :
    store (before ++ x :: behind) before.length y = .ok (before ++ y :: behind) := by
  simp [store]

theorem storeRange_eq_ok {buf : List α} {i : Nat} {xs : List α}
    (h : i + xs.length ≤ buf.length) :
    storeRange buf i xs = .ok (buf.take i ++ xs ++ buf.drop (i + xs.length)) := by
  simp [storeRange, h]

/-- A block that replaces the first elements behind a known part of a buffer. -/
theorem storeRange_append (before : List α) {behind xs : List α} (h : xs.length ≤ behind.length) :
    storeRange (before ++ behind) before.length xs =
      .ok (before ++ xs ++ behind.drop xs.length) := by
  rw [storeRange_eq_ok (by simpa using h), List.take_left, List.drop_append]
  simp

/-- A block that does not fit behind a known part of a buffer. -/
theorem storeRange_append_error (before : List α) {behind xs : List α}
    (h : behind.length < xs.length) :
    storeRange (before ++ behind) before.length xs = .error .outOfBounds := by
  rw [storeRange, if_neg (by rw [List.length_append]; omega)]

@[simp] theorem length_resize (buf : List α) (size : Nat) (x : α) :
    (resize buf size x).length = size := by
  simp [resize]
  omega

/-- Growing a buffer keeps what it holds. -/
theorem resize_of_le {buf : List α} {size : Nat} (x : α) (h : buf.length ≤ size) :
    resize buf size x = buf ++ List.replicate (size - buf.length) x := by
  simp [resize, List.take_of_length_le h]

theorem length_slice {buf : List α} {first last : Nat} (h : last ≤ buf.length) :
    (slice buf first last).length = last - first := by
  simp [slice]
  omega

/-- A slice of the part of a buffer that an extension leaves alone. -/
theorem slice_append_of_le {buf : List α} {first last : Nat} (h : last ≤ buf.length)
    (extra : List α) : slice (buf ++ extra) first last = slice buf first last := by
  rcases Nat.lt_or_ge buf.length first with hfirst | hfirst
  · simp [slice, show last - first = 0 by omega]
  · rw [slice, slice, List.drop_append_of_le_length hfirst, List.take_append_of_le_length]
    simp
    omega

/-- Cutting a slice in two. -/
theorem slice_append_slice (buf : List α) {first middle last : Nat}
    (hfirst : first ≤ middle) (hlast : middle ≤ last) :
    slice buf first last = slice buf first middle ++ slice buf middle last := by
  have hsplit : last - first = (middle - first) + (last - middle) := by omega
  rw [slice, hsplit, List.take_add, List.drop_drop, slice, slice,
    show first + (middle - first) = middle by omega]

/-- The stored block is what the slice at its place holds, before it nothing
changes. -/
theorem slice_storeRange {buf : List α} {first i : Nat} {xs : List α}
    (hfirst : first ≤ i) (h : i + xs.length ≤ buf.length) :
    slice (buf.take i ++ xs ++ buf.drop (i + xs.length)) first (i + xs.length) =
      slice buf first i ++ xs := by
  have hlen : (buf.take i).length = i := by simp; omega
  rw [slice_append_of_le (by simp [hlen]), slice_append_slice _ hfirst (by omega),
    slice_append_of_le (by omega)]
  congr 1
  · rw [slice, slice, List.drop_take, List.take_take]
    simp
  · rw [slice, List.drop_append_of_le_length (by omega), List.drop_of_length_le (by omega)]
    simp

theorem getElem?_slice (buf : List α) (first last i : Nat) :
    (slice buf first last)[i]? = if i < last - first then buf[first + i]? else none := by
  rw [slice, List.getElem?_take, List.getElem?_drop]

/-- Copying down inside a buffer: when the target lies before the source and
the source lies inside the buffer, the copy succeeds, and exactly the target
range is overwritten, by what the source range held at the start. -/
theorem copyDown_spec {buf : List α} {source target count : Nat}
    (htarget : target < source) (hsource : source + count ≤ buf.length) :
    ∃ buf', copyDown buf source target count = .ok buf' ∧ buf'.length = buf.length ∧
      ∀ i, buf'[i]? =
        if target ≤ i ∧ i < target + count then buf[source + (i - target)]? else buf[i]? := by
  induction count generalizing buf source target with
  | zero =>
      refine ⟨buf, rfl, rfl, fun i => ?_⟩
      rw [if_neg (by omega)]
  | succ count ih =>
      have hlt : source < buf.length := by omega
      obtain ⟨buf', hcopy, hlen, hcells⟩ :=
        @ih (buf.set target buf[source]) (source + 1) (target + 1) (by omega) (by simp; omega)
      refine ⟨buf', ?_, by simpa using hlen, fun i => ?_⟩
      · rw [copyDown, load_eq_ok hlt, Fault.ok_bind, store_eq_ok (by omega), Fault.ok_bind, hcopy]
      · rw [hcells i]
        simp only [List.getElem?_set]
        by_cases hin : target + 1 ≤ i ∧ i < target + 1 + count
        · -- copied by the rest of the loop, from a cell this step did not touch
          rw [if_pos hin, if_neg (by omega), if_pos (by omega),
            show source + 1 + (i - (target + 1)) = source + (i - target) by omega]
        · rw [if_neg hin]
          by_cases hi : target = i
          · subst hi
            simp [hlt, show target < buf.length by omega]
          · rw [if_neg hi, if_neg (by omega)]

/-- The target range of a downward copy holds the old source range. -/
theorem copyDown_eq_ok {buf : List α} {source target count : Nat}
    (htarget : target < source) (hsource : source + count ≤ buf.length) :
    ∃ buf', copyDown buf source target count = .ok buf' ∧ buf'.length = buf.length ∧
      slice buf' target (target + count) = slice buf source (source + count) := by
  obtain ⟨buf', hcopy, hlen, hcells⟩ := copyDown_spec htarget hsource
  refine ⟨buf', hcopy, hlen, List.ext_getElem? fun i => ?_⟩
  simp only [getElem?_slice, Nat.add_sub_cancel_left, hcells]
  by_cases hi : i < count
  · rw [if_pos hi, if_pos hi, if_pos (by omega)]
  · rw [if_neg hi, if_neg hi]

end Buffer
