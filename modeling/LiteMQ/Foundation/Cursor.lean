import LiteMQ.Foundation.Memory

/-!
# A pointer with the size of what is left

A C++ function that walks through a text often keeps the pointer and the number of
elements from it on apart.  The pointer is what is left of the text; `deref` faults at its
end, and `next` and `skip` fault where the pointer would leave the text or the size would
become negative.

`of` is the cursor whose size is right, and the lemmas say that it stays so.
-/

/-- What is left of a text, and how much of it the function believes to be left. -/
structure Cursor (α : Type) where
  src : List α
  size : Nat

namespace Cursor

variable {α : Type}

/-- The cursor at the beginning of a text. -/
def of (text : List α) : Cursor α := ⟨text, text.length⟩

/-- `*src` -/
def deref (c : Cursor α) : Except Fault α := Buffer.load c.src 0

/-- `src += n; size -= n;` -/
def skip (c : Cursor α) (n : Nat) : Except Fault (Cursor α) :=
  if n ≤ c.src.length ∧ n ≤ c.size then .ok ⟨c.src.drop n, c.size - n⟩ else .error .outOfBounds

/-- `src++; size--;` -/
def next (c : Cursor α) : Except Fault (Cursor α) := c.skip 1

@[simp] theorem size_of (text : List α) : (of text).size = text.length := rfl

@[simp] theorem deref_of_cons (x : α) (text : List α) : (of (x :: text)).deref = .ok x := rfl

theorem skip_of {text : List α} {n : Nat} (hn : n ≤ text.length) :
    (of text).skip n = .ok (of (text.drop n)) := by
  rw [skip, if_pos ⟨hn, hn⟩, of, of, List.length_drop]

@[simp] theorem next_of_cons (x : α) (text : List α) : (of (x :: text)).next = .ok (of text) :=
  skip_of (Nat.le_add_left 1 text.length)

end Cursor
