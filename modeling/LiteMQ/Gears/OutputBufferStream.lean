import LiteMQ.Gears.OutputMemoryStream

/-!
# The output buffer stream

An output memory stream over a buffer of the caller.  Its allocator hands out the buffer but
for the last cell, once, and has set the last cell to NUL before; so there is no extension,
a write behind that sets `badbit`, and the NUL that the destructor writes either finds room
or is not needed.

`Filled` is what the put area looks like after any writes, `Kept` what the stream does; the
caller's buffer at the end is `destroy_spec`.
-/

namespace LiteMQ.Gears

variable {σ α : Type}

/-! ## The source -/

/-- `BasicFixedBufferAllocator` over a buffer: its cells, and whether it is handed out.  The
cells that are handed out are the borrower's until they are given back. -/
structure FixedBufferAllocator (α : Type) where
  buffer : List α
  allocated : Bool

namespace FixedBufferAllocator

/-- The constructor, for a buffer of at least `size` cells. -/
def ofBuffer [Zero α] (size : Nat) (buffer : List α) : Except Fault (FixedBufferAllocator α) := do
  let buffer ← Buffer.store buffer (size - 1) 0
  .ok ⟨buffer, false⟩

def allocate (size : Nat) (a : FixedBufferAllocator α) (n : Nat) :
    Option (List α) × FixedBufferAllocator α :=
  if a.allocated ∨ n ≥ size then (none, a)
  else (some (a.buffer.take n), { a with allocated := true })

/-- `deallocate`; there is no other block than the buffer that `ptr` could be. -/
def deallocate (size : Nat) (a : FixedBufferAllocator α) (cells : List α) :
    FixedBufferAllocator α :=
  if ¬a.allocated ∨ cells.length ≥ size then a
  else ⟨cells ++ a.buffer.drop cells.length, false⟩

def allocator (size : Nat) : Allocator (FixedBufferAllocator α) α :=
  ⟨allocate size, deallocate size⟩

end FixedBufferAllocator

/-- `std::basic_streambuf::sputn`: characters up to the first one that is refused, and how many
that are. -/
def OutputMemoryStreamBuffer.sputn (A : Allocator σ α) :
    OutputMemoryStreamBuffer σ α → List α → Except Fault (Nat × OutputMemoryStreamBuffer σ α)
  | s, [] => .ok (0, s)
  | s, c :: text => do
      let (result, s) ← s.sputc A c
      if result.isNone then .ok (0, s)
      else do
        let (count, s) ← sputn A s text
        .ok (count + 1, s)

/-- `std::basic_ostream::write` -/
def OutputMemoryStream.write (A : Allocator σ α) (s : OutputMemoryStream σ α) (text : List α) :
    Except Fault (OutputMemoryStream σ α) :=
  if s.fail then .ok s
  else do
    let (count, buffer) ← s.buffer.sputn A text
    .ok ⟨buffer, count ≠ text.length⟩

/-- A write of a character or of a block. -/
inductive Write (α : Type)
  | put (c : α)
  | write (text : List α)

/-- The characters of a write. -/
def Write.text : Write α → List α
  | .put c => [c]
  | .write text => text

namespace OutputBufferStream

open FixedBufferAllocator (allocator)

/-- The stream. -/
abbrev Stream (α : Type) := OutputMemoryStream (FixedBufferAllocator α) α

variable (size : Nat)

/-- The constructor: all of the buffer but its last cell. -/
def ofBuffer [Zero α] (buffer : List α) : Except Fault (Stream α) := do
  let a ← FixedBufferAllocator.ofBuffer size buffer
  OutputMemoryStream.ofSize (allocator size) a (size - 1)

def write (s : Stream α) : Write α → Except Fault (Stream α)
  | .put c => s.put (allocator size) c
  | .write text => OutputMemoryStream.write (allocator size) s text

/-- The destructor, with `*this << '\0'` first; the buffer that it leaves. -/
def destroy [Zero α] (s : Stream α) : Except Fault (List α) := do
  let s ← OutputMemoryStream.write (allocator size) s [0]
  .ok (s.buffer.destroy (allocator size)).buffer

def writeAll : Stream α → List (Write α) → Except Fault (Stream α)
  | s, [] => .ok s
  | s, w :: writes => do
      let s ← write size s w
      writeAll s writes

/-- The life of a stream, and the buffer behind it. -/
def run [Zero α] (buffer : List α) (writes : List (Write α)) : Except Fault (List α) := do
  let s ← ofBuffer size buffer
  let s ← writeAll size s writes
  destroy size s

/-! ## The put area -/

/-- The put area after a text that fits: the text and what was there behind it, with the
allocator that has nothing more to give. -/
structure Filled (memory : List α) (s : OutputMemoryStreamBuffer (FixedBufferAllocator α) α)
    (text : List α) : Prop where
  allocator_eq : s.allocator = ⟨memory, decide (1 < size)⟩
  pptr_eq : s.pptr = text.length
  block_eq : s.block = text ++ (memory.take (size - 1)).drop text.length
  length_le : text.length ≤ size - 1

section

variable {size} {memory : List α} {s : OutputMemoryStreamBuffer (FixedBufferAllocator α) α}
  {text : List α}

theorem Filled.length_block (h : Filled size memory s text) (hsize : size ≤ memory.length) :
    s.block.length = size - 1 := by
  have hle := h.length_le
  rw [h.block_eq, List.length_append, List.length_drop, List.length_take]
  omega

/-- A character for which there is room. -/
theorem sputc_room (h : Filled size memory s text) (hsize : size ≤ memory.length)
    (hroom : text.length < size - 1) (c : α) :
    ∃ t, s.sputc (allocator size) c = .ok (some c, t) ∧ Filled size memory t (text ++ [c]) := by
  have hpptr := h.pptr_eq
  have hblock := h.length_block hsize
  have hcell : text.length < (memory.take (size - 1)).length := by
    rw [List.length_take]
    omega
  have hstore : Buffer.store s.block text.length c =
      .ok (text ++ c :: (memory.take (size - 1)).drop (text.length + 1)) := by
    rw [h.block_eq, List.drop_eq_getElem_cons hcell, Buffer.store_append]
  refine ⟨_, by
    rw [OutputMemoryStreamBuffer.sputc, if_pos (by omega), OutputMemoryStreamBuffer.place,
      if_pos (by omega), hpptr, Int.toNat_natCast, hstore]
    rfl, ?_⟩
  refine ⟨h.allocator_eq, ?_, ?_, ?_⟩
  · simp only [List.length_append, List.length_singleton, Nat.cast_add, Nat.cast_one]
  · simp only [List.length_append, List.length_singleton, List.append_assoc,
      List.singleton_append]
  · rw [List.length_append, List.length_singleton]
    omega

/-- The allocator has nothing more to give. -/
theorem extend_refused (h : Filled size memory s text) (hsize : size ≤ memory.length)
    (hpos : 0 < size) : s.extend (allocator size) = .ok (false, s) := by
  rw [OutputMemoryStreamBuffer.extend]
  cases hnew : OutputMemoryStreamBuffer.newSize s.block.length 52 with
  | none => rfl
  | some n =>
      -- more than the put area is at least the whole buffer
      have hgreater := (OutputMemoryStreamBuffer.newSize_bounds hnew).1
      have hblock := h.length_block hsize
      have hrefused : (allocator size).allocate s.allocator n = (none, s.allocator) :=
        if_pos (Or.inr (by omega))
      dsimp only
      rw [hrefused]

/-- A character for which there is no room. -/
theorem sputc_full (h : Filled size memory s text) (hsize : size ≤ memory.length)
    (hpos : 0 < size) (hfull : text.length = size - 1) (c : α) :
    s.sputc (allocator size) c = .ok (none, s) := by
  have hpptr := h.pptr_eq
  have hblock := h.length_block hsize
  rw [OutputMemoryStreamBuffer.sputc, if_neg (by omega), OutputMemoryStreamBuffer.overflow,
    extend_refused h hsize hpos]
  rfl

/-- A block is written as far as there is room. -/
theorem sputn_spec (h : Filled size memory s text) (hsize : size ≤ memory.length)
    (hpos : 0 < size) (more : List α) :
    ∃ t, s.sputn (allocator size) more =
        .ok (min more.length (size - 1 - text.length), t) ∧
      Filled size memory t ((text ++ more).take (size - 1)) := by
  induction more generalizing s text with
  | nil =>
      refine ⟨s, by simp [OutputMemoryStreamBuffer.sputn], ?_⟩
      rwa [List.append_nil, List.take_of_length_le h.length_le]
  | cons c more ih =>
      rw [OutputMemoryStreamBuffer.sputn]
      rcases Nat.lt_or_ge text.length (size - 1) with hroom | hfull
      · obtain ⟨t, hsputc, ht⟩ := sputc_room h hsize hroom c
        obtain ⟨u, hsputn, hu⟩ := ih ht
        rw [hsputc, Fault.ok_bind]
        dsimp only
        rw [if_neg (by simp), hsputn]
        refine ⟨u, ?_, by simpa using hu⟩
        rw [Fault.ok_bind, List.length_append, List.length_singleton, List.length_cons,
          show min more.length (size - 1 - (text.length + 1)) + 1 =
            min (more.length + 1) (size - 1 - text.length) by omega]
      · have hle := h.length_le
        rw [sputc_full h hsize hpos (by omega) c, Fault.ok_bind]
        refine ⟨s, ?_, ?_⟩
        · dsimp only
          rw [if_pos Option.isNone_none, show size - 1 - text.length = 0 by omega, Nat.min_zero]
        · rwa [List.take_append_of_le_length (by omega), List.take_of_length_le h.length_le]

/-! ## The stream -/

/-- After any writes the put area has as much of them as fits, and a write has failed only
when it is full. -/
structure Kept (size : Nat) (memory : List α) (s : Stream α) (written : List α) : Prop where
  filled : Filled size memory s.buffer (written.take (size - 1))
  full_of_fail : s.fail = true → size - 1 ≤ written.length

variable {s : Stream α} {written : List α}

theorem write_spec (h : Kept size memory s written) (hsize : size ≤ memory.length)
    (hpos : 0 < size) (text : List α) :
    ∃ t, OutputMemoryStream.write (allocator size) s text = .ok t ∧
      Kept size memory t (written ++ text) := by
  rw [OutputMemoryStream.write]
  by_cases hfail : s.fail
  · have hfull := h.full_of_fail hfail
    refine ⟨s, if_pos hfail, ?_, fun _ => ?_⟩
    · rw [List.take_append_of_le_length hfull]
      exact h.filled
    · rw [List.length_append]
      omega
  · obtain ⟨t, hsputn, ht⟩ := sputn_spec h.filled hsize hpos text
    rw [if_neg hfail, hsputn]
    refine ⟨_, rfl, ?_, ?_⟩
    · have hkept : (written.take (size - 1) ++ text).take (size - 1) =
          (written ++ text).take (size - 1) := by
        rw [List.take_append, List.take_append, List.take_take, List.length_take, min_self]
        congr 2
        omega
      rwa [hkept] at ht
    · intro hshort
      have hne : min text.length (size - 1 - (written.take (size - 1)).length) ≠ text.length :=
        of_decide_eq_true hshort
      rw [List.length_take] at hne
      rw [List.length_append]
      omega

/-- A character write is a block write of one character. -/
theorem put_eq_write (s : OutputMemoryStream σ α) (A : Allocator σ α) (c : α) :
    s.put A c = OutputMemoryStream.write A s [c] := by
  rw [OutputMemoryStream.put, OutputMemoryStream.write, OutputMemoryStreamBuffer.sputn]
  split
  next => rfl
  next =>
    rcases s.buffer.sputc A c with fault | ⟨result, t⟩
    · rfl
    · cases result with
      | none => rfl
      | some c => rfl

theorem write_eq (s : Stream α) (w : Write α) :
    write size s w = OutputMemoryStream.write (allocator size) s w.text := by
  cases w with
  | put c => exact put_eq_write s (allocator size) c
  | write text => rfl

theorem writeAll_spec (h : Kept size memory s written) (hsize : size ≤ memory.length)
    (hpos : 0 < size) (writes : List (Write α)) :
    ∃ t, writeAll size s writes = .ok t ∧
      Kept size memory t (written ++ writes.flatMap Write.text) := by
  induction writes generalizing s written with
  | nil => exact ⟨s, rfl, by simpa using h⟩
  | cons w writes ih =>
      obtain ⟨t, hwrite, ht⟩ := write_spec h hsize hpos w.text
      obtain ⟨u, hrest, hu⟩ := ih ht
      refine ⟨u, by rw [writeAll, write_eq, hwrite, Fault.ok_bind, hrest], ?_⟩
      rwa [List.flatMap_cons, ← List.append_assoc]

variable [Zero α]

/-- The allocator sets the last cell to NUL, and the put area is all in front of it. -/
theorem ofBuffer_spec {buffer : List α} (hsize : size ≤ buffer.length) (hpos : 0 < size) :
    ∃ s, ofBuffer size buffer = .ok s ∧ Kept size (buffer.set (size - 1) 0) s [] := by
  have hstore : Buffer.store buffer (size - 1) 0 = .ok (buffer.set (size - 1) 0) :=
    Buffer.store_eq_ok (by omega) 0
  rw [ofBuffer, FixedBufferAllocator.ofBuffer, hstore, Fault.ok_bind, Fault.ok_bind,
    OutputMemoryStream.ofSize, OutputMemoryStreamBuffer.ofSize]
  by_cases hone : 1 < size
  · have hallocate : (allocator size).allocate ⟨buffer.set (size - 1) 0, false⟩ (size - 1) =
        (some ((buffer.set (size - 1) 0).take (size - 1)),
          ⟨buffer.set (size - 1) 0, true⟩) := if_neg (by simp; omega)
    rw [if_pos (by omega), hallocate]
    refine ⟨_, rfl, ⟨?_, by simp, by simp, by simp⟩, fun hfail => by cases hfail⟩
    rw [decide_eq_true hone]
  · obtain rfl : size = 1 := by omega
    exact ⟨_, rfl, ⟨rfl, rfl, rfl, Nat.le_refl 0⟩, fun hfail => by cases hfail⟩

/-- The NUL of the destructor goes behind what was written, when it finds room, and the cells
go back to the buffer. -/
theorem destroy_spec (h : Kept size memory s written) (hsize : size ≤ memory.length)
    (hpos : 0 < size) :
    ∃ block, destroy size s = .ok (block ++ memory.drop (size - 1)) ∧
      block.length = size - 1 ∧ (written ++ [0]).take (size - 1) <+: block := by
  obtain ⟨t, hwrite, ht⟩ := write_spec h hsize hpos [0]
  have hlength := ht.filled.length_block hsize
  refine ⟨t.buffer.block, ?_, hlength, ?_⟩
  · rw [destroy, hwrite, Fault.ok_bind, OutputMemoryStreamBuffer.destroy, ht.filled.allocator_eq]
    by_cases hone : 1 < size
    · have hback : (allocator size).deallocate ⟨memory, decide (1 < size)⟩ t.buffer.block =
          ⟨t.buffer.block ++ memory.drop t.buffer.block.length, false⟩ :=
        if_neg (by simp [hone]; omega)
      rw [hback, hlength]
    · -- nothing was handed out
      have hnone : t.buffer.block = [] := List.eq_nil_of_length_eq_zero (by omega)
      have hkept : (allocator size).deallocate ⟨memory, decide (1 < size)⟩ t.buffer.block =
          ⟨memory, decide (1 < size)⟩ := if_pos (Or.inl (by simp [hone]))
      rw [hkept, hnone, List.nil_append, show size - 1 = 0 by omega, List.drop_zero]
  · rw [ht.filled.block_eq]
    exact List.prefix_append ..

/-- **Safe truncation.**  The buffer ends up with the first characters written, as many as fit
with a NUL behind them, and with what it had behind its first `size` cells; and no write ever
leaves the put area. -/
theorem run_truncates {size : Nat} (hpos : 1 ≤ size) {buffer : List α}
    (hsize : size ≤ buffer.length) (writes : List (Write α)) :
    ∃ final, run size buffer writes = .ok final ∧
      final.take (min (writes.flatMap Write.text).length (size - 1) + 1) =
        (writes.flatMap Write.text).take (size - 1) ++ [0] ∧
      final.length = buffer.length ∧ final.drop size = buffer.drop size := by
  have hmemory : size ≤ (buffer.set (size - 1) 0).length := by rwa [List.length_set]
  obtain ⟨s, hofBuffer, hs⟩ := ofBuffer_spec hsize hpos
  obtain ⟨t, hwriteAll, ht⟩ := writeAll_spec hs hmemory hpos writes
  obtain ⟨block, hdestroy, hlength, hblock⟩ := destroy_spec ht hmemory hpos
  rw [List.nil_append] at hblock
  generalize hwritten : writes.flatMap Write.text = written at hblock ⊢
  have hlast : (buffer.set (size - 1) 0).drop (size - 1) = 0 :: buffer.drop size := by
    rw [List.drop_eq_getElem_cons (by rw [List.length_set]; omega), List.getElem_set_self,
      List.drop_set_of_lt (by omega), Nat.sub_add_cancel hpos]
  rw [hlast] at hdestroy
  refine ⟨block ++ 0 :: buffer.drop size, ?_, ?_, ?_, ?_⟩
  · rw [run, hofBuffer, Fault.ok_bind, hwriteAll, Fault.ok_bind, hdestroy]
  · rcases Nat.lt_or_ge written.length (size - 1) with hroom | hfull
    · -- the NUL of the destructor
      rw [List.take_of_length_le (by simp; omega)] at hblock
      obtain ⟨rest, rfl⟩ := hblock
      rw [List.take_of_length_le hroom.le, min_eq_left hroom.le, List.append_assoc]
      exact List.take_left' (by simp)
    · -- the NUL of the allocator
      rw [List.take_append_of_le_length hfull] at hblock
      have hsame : written.take (size - 1) = block := by
        refine hblock.eq_of_length ?_
        rw [List.length_take]
        omega
      rw [hsame, min_eq_right hfull, List.append_cons]
      exact List.take_left' (by rw [List.length_append, List.length_singleton]; omega)
  · simp only [List.length_append, List.length_cons, List.length_drop]
    omega
  · rw [List.append_cons]
    exact List.drop_left' (by rw [List.length_append, List.length_singleton]; omega)

/-- "abc" through a stream of 3 cells. -/
theorem run_truncates_example :
    ∃ final, run 3 [7, 7, 7, 7] [.put 97, .write [98, 99]] = .ok final ∧
      final.take 3 = [97, 98, 0] ∧ final.length = 4 ∧ final.drop 3 = [7] :=
  run_truncates (α := Nat) (show 1 ≤ 3 by decide) (show 3 ≤ [7, 7, 7, 7].length by decide)
    [.put 97, .write [98, 99]]

end

end OutputBufferStream

end LiteMQ.Gears
