import Mathlib.Data.List.Infix
import LiteMQ.Foundation.Memory
import LiteMQ.Foundation.StreamPosition
import LiteMQ.Foundation.ReferenceTrace
import LiteMQ.Gears.SubStringSearch

/-!
# The output memory stream

The stream writes into a block of its allocator and takes a greater one when that is full.
What is written is held by the put pointers alone; `max_offset_` remembers how far a seek
back has left it behind.

The reference is a byte array with a write cursor.  The block always holds all of its bytes
(`Holds`), through any number of extensions.  But `str()` ends at the put pointer and not at
the greatest offset, and `pbump` takes an `int`: what the stream shows is the array just as
long as the cursor stays at the end and offsets stay below 2 ^ 31.
-/

namespace LiteMQ.Gears

open IntegerType (int64 sizeT castInt)
open ReferenceTrace (trace answers Within Along)

variable {σ α : Type}

/-- What the stream asks of its allocator: `allocate` returns the cells of a block, or null;
`deallocate` gets the cells back. -/
structure Allocator (σ α : Type) where
  allocate : σ → Nat → Option (List α) × σ
  deallocate : σ → List α → σ

/-- Blocks are never refused, and of the size that is asked for. -/
def Allocator.NeverFails (A : Allocator σ α) : Prop :=
  ∀ a n, ∃ block b, A.allocate a n = (some block, b) ∧ block.length = n

/-- The block from `pbase()` to `epptr()` and the pointers into it, as offsets. -/
structure OutputMemoryStreamBuffer (σ α : Type) where
  allocator : σ
  block : List α
  pptr : Int
  gptr : Int
  egptr : Int
  maxOffset : Int

namespace OutputMemoryStreamBuffer

/-! ## The source -/

/-- The constructor. -/
def ofSize (A : Allocator σ α) (a : σ) (initialSize : Nat) :
    Except Fault (OutputMemoryStreamBuffer σ α) :=
  if 0 < initialSize then
    match A.allocate a initialSize with
    | (some block, a) => .ok ⟨a, block, 0, 0, 0, 0⟩
    | (none, _) => .error .nullDereference
  else .ok ⟨a, [], 0, 0, 0, 0⟩

variable (A : Allocator σ α) (s : OutputMemoryStreamBuffer σ α)

/-- The destructor, as far as the allocator sees it. -/
def destroy : σ := A.deallocate s.allocator s.block

def size : Nat := sizeT s.pptr

/-- `MemoryBufferHolder::str`: the substring from `data()` of `size()` elements. -/
def str : Except Fault (List α) := BasicSubString.ofCount s.block s.size

/-- `if (current > max_offset_) max_offset_ = current;` -/
def noteOffset : OutputMemoryStreamBuffer σ α :=
  if s.pptr > s.maxOffset then { s with maxOffset := s.pptr } else s

def seekpos (pos : Int) (which : Openmode) : Int × OutputMemoryStreamBuffer σ α :=
  if which ≠ .output then (-1, s)
  else
    let s := s.noteOffset
    if pos < 0 ∨ pos > s.maxOffset then (-1, s)
    -- `setp` goes back to the beginning, and `pbump` forward by an `int`.
    else (pos, { s with pptr := castInt pos })

/-- `seekoff`; `none` when the position overflows. -/
def seekoff (off : Int) (way : Seekdir) (which : Openmode) :
    Option (Int × OutputMemoryStreamBuffer σ α) :=
  if which ≠ .output then some (-1, s)
  else
    let t := s.noteOffset
    match way with
    | .beg => some (t.seekpos off which)
    | .cur => (int64.checked (off + s.pptr)).map fun pos => t.seekpos pos which
    | .fromEnd => (int64.checked (t.maxOffset + off)).map fun pos => t.seekpos pos which
    | .other => some (-1, t)

/-- `while (new_size <= old_size) new_size <<= 1;` with so many bits of the size left above
the one that is set; `none` when it is shifted out. -/
def newSize (oldSize : Nat) : (bits : Nat) → Option Nat
  | 0 => none
  | bits + 1 => if 2 ^ (63 - bits) ≤ oldSize then newSize oldSize bits else some (2 ^ (63 - bits))

/-- `extend`: whether there is a greater block now. -/
def extend : Except Fault (Bool × OutputMemoryStreamBuffer σ α) :=
  match newSize s.block.length 52 with
  -- The size was shifted out.
  | none => .ok (false, s)
  | some size =>
      match A.allocate s.allocator size with
      | (none, a) => .ok (false, { s with allocator := a })
      | (some block, a) => do
          let block ← Buffer.storeRange block 0 s.block
          let a := if s.block.length > 0 then A.deallocate a s.block else a
          .ok (true, { s with allocator := a, block := block, pptr := castInt s.pptr })

/-- `*pptr() = c; pbump(1);` -/
def place (c : α) : Except Fault (OutputMemoryStreamBuffer σ α) :=
  if 0 ≤ s.pptr then do
    let block ← Buffer.store s.block s.pptr.toNat c
    .ok { s with block := block, pptr := s.pptr + 1 }
  else .error .outOfBounds

/-- `overflow`; `none` is `eof`. -/
def overflow (c : α) : Except Fault (Option α × OutputMemoryStreamBuffer σ α) := do
  let gpos := s.gptr
  let (extended, s) ← s.extend A
  if extended then do
    let s ← s.place c
    .ok (some c, { s with gptr := gpos, egptr := s.pptr })
  else .ok (none, s)

/-- `std::basic_streambuf::sputc` -/
def sputc (c : α) : Except Fault (Option α × OutputMemoryStreamBuffer σ α) :=
  if s.pptr < s.block.length then do
    let s ← s.place c
    .ok (some c, s)
  else s.overflow A c

end OutputMemoryStreamBuffer

/-- The stream: its buffer, and whether `failbit` or `badbit` is set. -/
structure OutputMemoryStream (σ α : Type) where
  buffer : OutputMemoryStreamBuffer σ α
  fail : Bool

namespace OutputMemoryStream

/-- Character writes, and what concerns the position. -/
inductive OutputCall (α : Type)
  | put (c : α)
  | tellp
  | seekp (pos : Int)
  | seekpOff (off : Int) (way : Seekdir)

/-- The constructor. -/
def ofSize (A : Allocator σ α) (a : σ) (initialSize : Nat) :
    Except Fault (OutputMemoryStream σ α) := do
  let buffer ← OutputMemoryStreamBuffer.ofSize A a initialSize
  .ok ⟨buffer, false⟩

variable (A : Allocator σ α) (s : OutputMemoryStream σ α)

/-- `std::basic_ostream::put` -/
def put (c : α) : Except Fault (OutputMemoryStream σ α) :=
  if s.fail then .ok s
  else do
    let (result, buffer) ← s.buffer.sputc A c
    .ok ⟨buffer, result.isNone⟩

/-- `std::basic_ostream::tellp` -/
def tellp : Option (Int × OutputMemoryStream σ α) :=
  if s.fail then some (-1, s)
  else (s.buffer.seekoff 0 .cur .output).map fun next => (next.1, ⟨next.2, false⟩)

/-- `std::basic_ostream::seekp`, both of them: a seek that fails sets `failbit`. -/
def seekp (seek : Option (Int × OutputMemoryStreamBuffer σ α)) : Option (OutputMemoryStream σ α) :=
  if s.fail then some s else seek.map fun next => ⟨next.2, next.1 = -1⟩

def call : OutputCall α → Option (OutputMemoryStream σ α)
  | .put c => (s.put A c).toOption
  | .tellp => s.tellp.map Prod.snd
  | .seekp pos => s.seekp (some (s.buffer.seekpos pos .output))
  | .seekpOff off way => s.seekp (s.buffer.seekoff off way .output)

/-- A call, and what `str()` shows after it. -/
def step (c : OutputCall α) : Option (Except Fault (List α) × OutputMemoryStream σ α) :=
  (s.call A c).map fun t => (t.buffer.str, t)

end OutputMemoryStream

/-! ## The reference -/

/-- A byte array with a write cursor. -/
structure WrittenBytes (α : Type) where
  content : List α
  cursor : Nat

namespace WrittenBytes

open OutputMemoryStream (OutputCall)

variable (r : WrittenBytes α)

/-- A write overwrites at the cursor, or extends the array at its end. -/
def put (c : α) : WrittenBytes α :=
  ⟨r.content.take r.cursor ++ c :: r.content.drop (r.cursor + 1), r.cursor + 1⟩

/-- The place that a call goes to, when it is no write. -/
def target : OutputCall α → Option Int
  | .put _ => none
  | .tellp => some r.cursor
  | .seekp pos => some pos
  | .seekpOff off way => way.target r.content.length r.cursor off

def call : OutputCall α → WrittenBytes α
  | .put c => r.put c
  | .tellp => r
  | .seekp pos => { r with cursor := pos.toNat }
  | .seekpOff off way =>
      match way.target r.content.length r.cursor off with
      | some pos => { r with cursor := pos.toNat }
      | none => r

/-- A call, and the content after it. -/
def next (c : OutputCall α) : Except Fault (List α) × WrittenBytes α :=
  (.ok (r.call c).content, r.call c)

/-- A call, and what is then in front of the cursor. -/
def upToCursor (c : OutputCall α) : Except Fault (List α) × WrittenBytes α :=
  (.ok ((r.call c).content.take (r.call c).cursor), r.call c)

/-- The targets of the seeks are inside the data written so far. -/
def Inside : OutputCall α → Prop
  | .put _ => True
  | c => ∃ pos : Nat, r.target c = some (pos : Int) ∧ pos ≤ r.content.length

/-- The targets of the seeks are the end of the data written so far. -/
def AtEnd (c : OutputCall α) : Prop := ∀ pos ∈ r.target c, pos = r.content.length

variable {r}

/-- A call inside is a write, or goes to its target. -/
theorem Inside.cases {c : OutputCall α} (h : r.Inside c) :
    (∃ ch, c = .put ch) ∨ ∃ pos : Nat, r.target c = some (pos : Int) ∧
      pos ≤ r.content.length ∧ r.call c = { r with cursor := pos } := by
  cases c with
  | put ch => exact Or.inl ⟨ch, rfl⟩
  | tellp =>
      obtain ⟨pos, htarget, hpos⟩ := h
      have hcursor : r.cursor = pos := by exact_mod_cast Option.some.inj htarget
      exact Or.inr ⟨pos, htarget, hpos, by rw [← hcursor]; rfl⟩
  | seekp p =>
      obtain ⟨pos, htarget, hpos⟩ := h
      refine Or.inr ⟨pos, htarget, hpos, ?_⟩
      rw [call, Option.some.inj htarget, Int.toNat_natCast]
  | seekpOff off way =>
      obtain ⟨pos, htarget, hpos⟩ := h
      have hway : way.target r.content.length r.cursor off = some (pos : Int) := htarget
      refine Or.inr ⟨pos, htarget, hpos, ?_⟩
      rw [call, hway]
      simp only [Int.toNat_natCast]

theorem length_put (ch : α) :
    (r.put ch).content.length = min r.cursor r.content.length + 1 +
      (r.content.length - (r.cursor + 1)) := by
  simp only [put, List.length_append, List.length_take, List.length_cons, List.length_drop]
  omega

theorem atEnd_put (ch : α) : r.AtEnd (.put ch) := by
  intro pos hpos
  cases hpos

theorem atEnd_iff {c : OutputCall α} {pos : Nat} (h : r.target c = some (pos : Int)) :
    r.AtEnd c ↔ pos = r.content.length := by
  rw [AtEnd, h]
  simp only [Option.mem_def, Option.some.injEq, forall_eq', Nat.cast_inj]

/-- Writes at the end and seeks to it end there. -/
theorem call_atEnd (hend : r.cursor = r.content.length) {c : OutputCall α}
    (hinside : r.Inside c) (hat : r.AtEnd c) :
    (r.call c).cursor = (r.call c).content.length := by
  rcases hinside.cases with ⟨ch, rfl⟩ | ⟨pos, htarget, -, hcall⟩
  · have hcursor : (r.put ch).cursor = r.cursor + 1 := rfl
    rw [call, length_put, hcursor]
    omega
  · rw [hcall]
    exact (atEnd_iff htarget).1 hat

end WrittenBytes

/-! ## The block -/

/-- The block holds all that was written, and the pointers say where its end and the cursor
are. -/
structure Holds (s : OutputMemoryStreamBuffer σ α) (r : WrittenBytes α) : Prop where
  pptr_eq : s.pptr = r.cursor
  cursor_le : r.cursor ≤ r.content.length
  max_eq : max s.maxOffset s.pptr = r.content.length
  block_begins : r.content <+: s.block
  block_le : s.block.length ≤ 2 ^ 63

namespace OutputMemoryStreamBuffer

variable {A : Allocator σ α} {s t : OutputMemoryStreamBuffer σ α} {r : WrittenBytes α}

/-- Doubled often enough the size is greater, and it is never more than 2 ^ 63. -/
theorem newSize_bounds {oldSize bits size : Nat} (h : newSize oldSize bits = some size) :
    oldSize < size ∧ size ≤ 2 ^ 63 := by
  induction bits with
  | zero => cases h
  | succ bits ih =>
      rw [newSize] at h
      split at h
      next => exact ih h
      next hlt =>
        obtain rfl := Option.some.inj h
        exact ⟨by omega, Nat.pow_le_pow_right (by decide) (Nat.sub_le 63 bits)⟩

theorem exists_newSize {oldSize bits : Nat} (hbits : 0 < bits) (hold : oldSize < 2 ^ 63) :
    ∃ size, newSize oldSize bits = some size := by
  induction bits with
  | zero => omega
  | succ bits ih =>
      rw [newSize]
      split
      next hle =>
        have hbits : 0 < bits := by
          by_contra hzero
          obtain rfl : bits = 0 := by omega
          exact absurd (lt_of_le_of_lt hle hold) (lt_irrefl _)
        exact ih hbits
      next => exact ⟨_, rfl⟩

/-- `str()` shows what is written up to the cursor. -/
theorem str_eq (h : Holds s r) : s.str = .ok (r.content.take r.cursor) := by
  obtain ⟨rest, hrest⟩ := h.block_begins
  have hle := h.cursor_le
  have hlength : r.content.length + rest.length = s.block.length := by
    rw [← hrest, List.length_append]
  have hsize : s.size = (r.content.take r.cursor).length := by
    rw [size, h.pptr_eq, IntegerType.sizeT_of_nat (by have hblock := h.block_le; omega),
      List.length_take]
    omega
  have hblock : s.block = r.content.take r.cursor ++ (r.content.drop r.cursor ++ rest) := by
    rw [← List.append_assoc, List.take_append_drop, hrest]
  rw [str, hsize, hblock]
  exact BasicSubString.ofCount_append _ _

/-- What `str()` shows does not go beyond the put pointer. -/
theorem length_str_le {text : List α} (h : s.str = .ok text) (hblock : s.block.length ≤ 2 ^ 63)
    (hpptr : -2 ^ 31 ≤ s.pptr) : text.length ≤ s.pptr := by
  rw [str, BasicSubString.ofCount, BasicSubString.range] at h
  split at h
  next hle =>
    obtain rfl := Except.ok.inj h
    rw [Buffer.length_slice hle.2]
    have hsize : s.size = sizeT s.pptr := rfl
    unfold sizeT at hsize
    omega
  next => cases h

theorem place_spec (h : Holds s r) (hlt : r.cursor < s.block.length) (c : α) :
    ∃ t, s.place c = .ok t ∧ Holds t (r.put c) := by
  have hpptr := h.pptr_eq
  have hle := h.cursor_le
  have hmax := h.max_eq
  have hlength : (r.put c).content.length = max r.content.length (r.cursor + 1) := by
    rw [WrittenBytes.length_put]
    omega
  have hblock : s.block = r.content.take r.cursor ++
      s.block[r.cursor] :: s.block.drop (r.cursor + 1) := by
    conv_lhs => rw [← List.take_append_drop r.cursor s.block, List.drop_eq_getElem_cons hlt]
    rw [List.prefix_iff_eq_take.mp h.block_begins, List.take_take, min_eq_left hle]
  have htake : (r.content.take r.cursor).length = r.cursor := by
    rw [List.length_take, min_eq_left hle]
  have hstore : Buffer.store s.block r.cursor c =
      .ok (r.content.take r.cursor ++ c :: s.block.drop (r.cursor + 1)) := by
    have hstore := Buffer.store_append (r.content.take r.cursor) s.block[r.cursor] c
      (s.block.drop (r.cursor + 1))
    rwa [htake, ← hblock] at hstore
  refine ⟨_, by rw [place, if_pos (by omega), hpptr, Int.toNat_natCast, hstore]; rfl, ?_⟩
  constructor
  · simp only [WrittenBytes.put, Nat.cast_add, Nat.cast_one]
  · rw [hlength]
    exact le_max_right _ _
  · rw [hlength]
    push_cast
    omega
  · exact (List.prefix_append_right_inj _).2
      ((List.prefix_cons_inj c).2 (List.IsPrefix.drop h.block_begins _))
  · have hle := h.block_le
    simp only [List.length_append, List.length_cons, List.length_drop, htake]
    omega

/-- What an extension does: the old cells come first, and the put pointer goes through an
`int`. -/
theorem extend_eq (hA : A.NeverFails) {size : Nat}
    (hsize : newSize s.block.length 52 = some size) :
    ∃ t fresh, s.extend A = .ok (true, t) ∧ t.block = s.block ++ fresh ∧
      t.block.length = size ∧ t.pptr = castInt s.pptr ∧ t.maxOffset = s.maxOffset := by
  obtain ⟨hgreater, -⟩ := newSize_bounds hsize
  obtain ⟨block, a, hallocate, rfl⟩ := hA s.allocator size
  have hcopy : Buffer.storeRange block 0 s.block =
      .ok (s.block ++ block.drop s.block.length) := by
    rw [Buffer.storeRange_eq_ok (by omega), List.take_zero, List.nil_append, Nat.zero_add]
  refine ⟨{ s with
    allocator := if s.block.length > 0 then A.deallocate a s.block else a
    block := s.block ++ block.drop s.block.length
    pptr := castInt s.pptr }, block.drop s.block.length, ?_, rfl, ?_, rfl, rfl⟩
  · rw [extend, hsize]
    dsimp only
    rw [hallocate]
    dsimp only
    rw [hcopy]
    rfl
  · simp only [List.length_append, List.length_drop]
    omega

/-- An extension keeps what is written, when the cursor is an `int`. -/
theorem extend_spec (hA : A.NeverFails) (h : Holds s r) (hfull : s.block.length ≤ r.cursor)
    (hint : r.cursor < 2 ^ 31) :
    ∃ t, s.extend A = .ok (true, t) ∧ Holds t r ∧ r.cursor < t.block.length := by
  have hbegins := h.block_begins.length_le
  have hcursor := h.cursor_le
  obtain ⟨size, hsize⟩ :=
    exists_newSize (show 0 < 52 by decide) (show s.block.length < 2 ^ 63 by omega)
  obtain ⟨hgreater, hle⟩ := newSize_bounds hsize
  obtain ⟨t, fresh, hextend, hblock, hlength, hpptr, hmax⟩ := extend_eq hA hsize
  have hcast : castInt s.pptr = s.pptr := by
    rw [h.pptr_eq]
    exact IntegerType.castInt_of_lt (by omega) (by omega)
  rw [hcast] at hpptr
  refine ⟨t, hextend, ⟨hpptr.trans h.pptr_eq, h.cursor_le, ?_, ?_, hlength.trans_le hle⟩, ?_⟩
  · rw [hmax, hpptr]
    exact h.max_eq
  · rw [hblock]
    exact h.block_begins.trans (List.prefix_append ..)
  · omega

/-- A character is written at the cursor, into a greater block when this one is full. -/
theorem sputc_spec (hA : A.NeverFails) (h : Holds s r)
    (hint : s.block.length ≤ r.cursor → r.cursor < 2 ^ 31) (c : α) :
    ∃ t, s.sputc A c = .ok (some c, t) ∧ Holds t (r.put c) := by
  rw [sputc, h.pptr_eq]
  by_cases hlt : r.cursor < s.block.length
  · obtain ⟨t, hplace, ht⟩ := place_spec h hlt c
    exact ⟨t, by rw [if_pos (by exact_mod_cast hlt), hplace]; rfl, ht⟩
  · have hfull : s.block.length ≤ r.cursor := Nat.le_of_not_lt hlt
    obtain ⟨u, hextend, hu, hroom⟩ := extend_spec hA h hfull (hint hfull)
    obtain ⟨t, hplace, ht⟩ := place_spec hu hroom c
    refine ⟨_, by
      rw [if_neg (by exact_mod_cast hlt), overflow, hextend, Fault.ok_bind]
      dsimp only
      rw [if_pos rfl, hplace]
      rfl, ?_⟩
    exact ⟨ht.pptr_eq, ht.cursor_le, ht.max_eq, ht.block_begins, ht.block_le⟩

/-- Without room, at an offset that is no `int`, the put pointer ends up before the new end. -/
theorem sputc_far (hA : A.NeverFails) (h : Holds s r) (hend : r.cursor = r.content.length)
    (hfull : s.block.length ≤ r.cursor) (hfar : 2 ^ 31 ≤ r.cursor) {c : α} {result : Option α}
    (hsputc : s.sputc A c = .ok (result, t)) :
    -2 ^ 31 ≤ t.pptr ∧ t.pptr ≤ r.cursor ∧ t.block.length ≤ 2 ^ 63 := by
  have hpptr := h.pptr_eq
  have hblock := h.block_le
  rw [sputc, if_neg (by omega), overflow] at hsputc
  cases hsize : newSize s.block.length 52 with
  | none =>
      rw [extend, hsize] at hsputc
      obtain ⟨-, rfl⟩ := Prod.mk.inj (Except.ok.inj hsputc)
      exact ⟨by omega, by omega, hblock⟩
  | some size =>
      obtain ⟨-, hle⟩ := newSize_bounds hsize
      obtain ⟨u, -, hextend, -, hlength, hu, -⟩ := extend_eq hA hsize
      have hcast := IntegerType.castInt_ge s.pptr
      have hlt := IntegerType.castInt_lt (show 2 ^ 31 ≤ s.pptr by omega)
      rw [hextend, Fault.ok_bind] at hsputc
      dsimp only at hsputc
      rw [if_pos rfl, place, Buffer.store] at hsputc
      by_cases hpos : 0 ≤ u.pptr ∧ u.pptr.toNat < u.block.length
      · rw [if_pos hpos.1, if_pos hpos.2] at hsputc
        obtain ⟨-, rfl⟩ := Prod.mk.inj (Except.ok.inj hsputc)
        simp only [List.length_set]
        exact ⟨by omega, by omega, by omega⟩
      · -- the cell is outside the block
        by_cases hsign : 0 ≤ u.pptr
        · rw [if_pos hsign, if_neg (fun hcell => hpos ⟨hsign, hcell⟩)] at hsputc
          cases hsputc
        · rw [if_neg hsign] at hsputc
          cases hsputc

/-! ## The seeks -/

/-- The buffer behind a seek that succeeds. -/
def moved (s : OutputMemoryStreamBuffer σ α) (greatest : Nat) (pos : Int) :
    OutputMemoryStreamBuffer σ α :=
  { s with maxOffset := greatest, pptr := castInt pos }

theorem moved_block (greatest : Nat) (pos : Int) : (s.moved greatest pos).block = s.block := rfl

theorem moved_pptr (greatest : Nat) (pos : Int) : (s.moved greatest pos).pptr = castInt pos := rfl

theorem noteOffset_eq (h : Holds s r) :
    s.noteOffset = { s with maxOffset := r.content.length } := by
  have hmax := h.max_eq
  rw [noteOffset]
  split
  next hgt => rw [show s.pptr = r.content.length by omega]
  next hle => rw [← show s.maxOffset = r.content.length by omega]

theorem noteOffset_holds (h : Holds s r) : Holds s.noteOffset r := by
  have hmax := h.max_eq
  rw [noteOffset_eq h]
  exact ⟨h.pptr_eq, h.cursor_le, by dsimp only; omega, h.block_begins, h.block_le⟩

theorem seekpos_eq (h : Holds s r) {pos : Nat} (hpos : pos ≤ r.content.length) :
    s.seekpos pos .output = (↑pos, s.moved r.content.length pos) := by
  rw [seekpos, if_neg (by simp), noteOffset_eq h]
  exact if_neg (by dsimp only; omega)

/-- A seek to a place inside overflows or succeeds. -/
theorem seekoff_eq (h : Holds s r) {off : Int} {way : Seekdir} {pos : Nat}
    (htarget : way.target r.content.length r.cursor off = some (pos : Int))
    (hpos : pos ≤ r.content.length) :
    s.seekoff off way .output = some (↑pos, s.moved r.content.length pos) ∨
      s.seekoff off way .output = none ∧ ¬int64.Fits pos := by
  have hseek : s.noteOffset.seekpos pos .output = (↑pos, s.moved r.content.length pos) := by
    rw [seekpos_eq (noteOffset_holds h) hpos, noteOffset_eq h]
    rfl
  have hsum : ∀ sum : Int, sum = pos →
      (int64.checked sum).map (fun pos => s.noteOffset.seekpos pos .output) =
          some (↑pos, s.moved r.content.length pos) ∨
        (int64.checked sum).map (fun pos => s.noteOffset.seekpos pos .output) = none ∧
          ¬int64.Fits pos := by
    rintro sum rfl
    by_cases hfits : int64.Fits pos
    · exact Or.inl (by rw [IntegerType.checked_of_fits hfits, Option.map_some, hseek])
    · exact Or.inr ⟨by rw [IntegerType.checked_of_not_fits hfits, Option.map_none], hfits⟩
  rw [seekoff.eq_def, if_neg (by simp)]
  cases way with
  | beg =>
      have hoff : off = pos := by simpa [Seekdir.target, Seekdir.base] using htarget
      exact Or.inl (by dsimp only; rw [hoff, hseek])
  | cur =>
      have hoff : r.cursor + off = (pos : Int) := by
        simpa [Seekdir.target, Seekdir.base] using htarget
      exact hsum _ (by rw [h.pptr_eq]; omega)
  | fromEnd =>
      have hoff : r.content.length + off = (pos : Int) := by
        simpa [Seekdir.target, Seekdir.base] using htarget
      exact hsum _ (by rw [noteOffset_eq h]; exact hoff)
  | other => cases htarget

/-- A seek to an `int` moves the cursor and loses nothing. -/
theorem moved_holds (h : Holds s r) {pos : Nat} (hpos : pos ≤ r.content.length)
    (hint : pos < 2 ^ 31) :
    Holds (s.moved r.content.length pos) { r with cursor := pos } := by
  have hcast : castInt pos = pos := IntegerType.castInt_of_lt (by omega) (by omega)
  have hmax : max (r.content.length : Int) (castInt pos) = r.content.length := by omega
  refine ⟨hcast, hpos, hmax, ?_, ?_⟩
  · rw [moved_block]
    exact h.block_begins
  · rw [moved_block]
    exact h.block_le

end OutputMemoryStreamBuffer

namespace OutputMemoryStream

variable {A : Allocator σ α} {s t : OutputMemoryStream σ α} {r : WrittenBytes α}

/-- The stream holds what was written, and nothing has failed. -/
def Follows (s : OutputMemoryStream σ α) (r : WrittenBytes α) : Prop :=
  s.fail = false ∧ Holds s.buffer r

/-- What is written next extends the data. -/
def FollowsAtEnd (s : OutputMemoryStream σ α) (r : WrittenBytes α) : Prop :=
  Follows s r ∧ r.cursor = r.content.length

/-- The offsets that pass through an `int`, those of the seeks and of an extension, are such. -/
def OffsetsFit (s : OutputMemoryStream σ α) (r : WrittenBytes α) : OutputCall α → Prop
  | .put _ => s.buffer.block.length ≤ s.buffer.pptr → s.buffer.pptr < 2 ^ 31
  | c => ∀ pos ∈ r.target c, pos < 2 ^ 31

/-- What is a seek to a place inside goes there or overflows. -/
theorem call_seek (h : Follows s r) {c : OutputCall α} {pos : Nat}
    (htarget : r.target c = some (pos : Int)) (hpos : pos ≤ r.content.length) :
    s.call A c = some ⟨s.buffer.moved r.content.length pos, false⟩ ∨
      s.call A c = none ∧ ¬int64.Fits pos := by
  obtain ⟨hfail, hholds⟩ := h
  cases c with
  | put c => cases htarget
  | tellp =>
      -- `tellp` is a seek to where the cursor is
      have hcur : Seekdir.cur.target r.content.length r.cursor 0 = some (pos : Int) := by
        rw [← htarget]
        simp [Seekdir.target, Seekdir.base, WrittenBytes.target]
      rw [call, tellp, if_neg (by simp [hfail])]
      rcases OutputMemoryStreamBuffer.seekoff_eq hholds hcur hpos with hseek | ⟨hseek, hfits⟩
      · exact Or.inl (by rw [hseek]; rfl)
      · exact Or.inr ⟨by rw [hseek]; rfl, hfits⟩
  | seekp p =>
      obtain rfl : p = pos := Option.some.inj htarget
      rw [call, seekp, if_neg (by simp [hfail]),
        OutputMemoryStreamBuffer.seekpos_eq hholds hpos, Option.map_some]
      exact Or.inl (by rw [decide_eq_false (by dsimp only; omega)])
  | seekpOff off way =>
      rw [call, seekp, if_neg (by simp [hfail])]
      rcases OutputMemoryStreamBuffer.seekoff_eq hholds htarget hpos with hseek | ⟨hseek, hfits⟩
      · rw [hseek, Option.map_some]
        exact Or.inl (by rw [decide_eq_false (by dsimp only; omega)])
      · exact Or.inr ⟨by rw [hseek]; rfl, hfits⟩

theorem offsetsFit_iff {c : OutputCall α} {pos : Nat} (h : r.target c = some (pos : Int)) :
    OffsetsFit s r c ↔ pos < 2 ^ 31 := by
  have hiff : (∀ p ∈ r.target c, p < 2 ^ 31) ↔ pos < 2 ^ 31 := by
    rw [h]
    simp only [Option.mem_def, Option.some.injEq, forall_eq']
    omega
  cases c with
  | put ch => cases h
  | tellp => exact hiff
  | seekp p => exact hiff
  | seekpOff off way => exact hiff

theorem put_eq (h : Follows s r) (c : α) :
    s.call A (.put c) = ((s.buffer.sputc A c).map fun next =>
      (⟨next.2, next.1.isNone⟩ : OutputMemoryStream σ α)).toOption := by
  rw [call, put, if_neg (by simp [h.1])]
  cases s.buffer.sputc A c <;> rfl

/-- A call inside, with offsets that fit, is followed. -/
theorem call_spec (hA : A.NeverFails) (h : Follows s r) {c : OutputCall α}
    (hinside : r.Inside c) (hfit : OffsetsFit s r c) :
    ∃ t, s.call A c = some t ∧ Follows t (r.call c) := by
  have hpptr := h.2.pptr_eq
  rcases hinside.cases with ⟨ch, rfl⟩ | ⟨pos, htarget, hpos, hcall⟩
  · have hroom : s.buffer.block.length ≤ r.cursor → r.cursor < 2 ^ 31 := by
      intro hfull
      have hlt := hfit (by omega)
      omega
    obtain ⟨t, hsputc, ht⟩ := OutputMemoryStreamBuffer.sputc_spec hA h.2 hroom ch
    refine ⟨⟨t, false⟩, ?_, rfl, ht⟩
    rw [put_eq h, hsputc]
    rfl
  · have hint := (offsetsFit_iff htarget).1 hfit
    rcases call_seek h htarget hpos with hdone | ⟨-, hfits⟩
    · refine ⟨_, hdone, rfl, ?_⟩
      rw [hcall]
      exact OutputMemoryStreamBuffer.moved_holds h.2 hpos hint
    · exact absurd (IntegerType.fits_int64.2 (by omega)) hfits

theorem ofSize_spec (hA : A.NeverFails) (a : σ) {initialSize : Nat}
    (hsize : initialSize < 2 ^ 63) :
    ∃ s, ofSize A a initialSize = .ok s ∧ Follows s ⟨[], 0⟩ := by
  by_cases hpos : 0 < initialSize
  · obtain ⟨block, b, hallocate, rfl⟩ := hA a initialSize
    refine ⟨⟨⟨b, block, 0, 0, 0, 0⟩, false⟩, ?_, rfl,
      ⟨rfl, Nat.zero_le _, rfl, List.nil_prefix, hsize.le⟩⟩
    rw [ofSize, OutputMemoryStreamBuffer.ofSize, if_pos hpos, hallocate]
    rfl
  · refine ⟨⟨⟨a, [], 0, 0, 0, 0⟩, false⟩, ?_, rfl,
      ⟨rfl, Nat.zero_le _, rfl, List.nil_prefix, Nat.zero_le _⟩⟩
    rw [ofSize, OutputMemoryStreamBuffer.ofSize, if_neg hpos]
    rfl

theorem step_eq {c : OutputCall α} (h : s.call A c = some t) :
    s.step A c = some (t.buffer.str, t) := by
  rw [step, h, Option.map_some]

/-- A stream whose put pointer is before the end of some bytes does not show these. -/
theorem str_ne {text : List α} (hblock : t.buffer.block.length ≤ 2 ^ 63)
    (hpptr : -2 ^ 31 ≤ t.buffer.pptr) (hlt : t.buffer.pptr < text.length) :
    t.buffer.str ≠ .ok text := by
  intro hstr
  have hle := OutputMemoryStreamBuffer.length_str_le hstr hblock hpptr
  omega

/-- A write at the end, without room and at an offset that is no `int`, is not shown. -/
theorem put_ne (hA : A.NeverFails) (h : Follows s r) (hend : r.cursor = r.content.length)
    (hfull : s.buffer.block.length ≤ r.cursor) (hfar : 2 ^ 31 ≤ r.cursor) {c : α}
    (hput : s.call A (.put c) = some t) : t.buffer.str ≠ .ok (r.put c).content := by
  rw [put_eq h] at hput
  cases hsputc : s.buffer.sputc A c with
  | error fault =>
      rw [hsputc] at hput
      cases hput
  | ok next =>
      rw [hsputc] at hput
      obtain rfl := Option.some.inj hput
      obtain ⟨hge, hle, hblock⟩ :=
        OutputMemoryStreamBuffer.sputc_far hA h.2 hend hfull hfar hsputc
      refine str_ne hblock hge ?_
      rw [WrittenBytes.length_put]
      dsimp only
      omega

/-- A seek that is not to the end, or at an offset that is no `int`, shortens what is shown. -/
theorem seek_ne (h : Follows s r) {c : OutputCall α} {pos : Nat}
    (htarget : r.target c = some (pos : Int)) (hpos : pos ≤ r.content.length)
    (hnot : ¬(pos < 2 ^ 31 ∧ pos = r.content.length)) (hcall : s.call A c = some t) :
    t.buffer.str ≠ .ok r.content := by
  rcases call_seek h htarget hpos with hdone | ⟨hnone, -⟩
  · obtain rfl := Option.some.inj (hcall.symm.trans hdone)
    have hblock : (s.buffer.moved r.content.length pos).block.length ≤ 2 ^ 63 := by
      rw [OutputMemoryStreamBuffer.moved_block]
      exact h.2.block_le
    have hle := IntegerType.castInt_le (show (0 : Int) ≤ pos by omega)
    have hlt := @IntegerType.castInt_lt pos
    have hbefore : (s.buffer.moved r.content.length pos).pptr < r.content.length := by
      rw [OutputMemoryStreamBuffer.moved_pptr]
      omega
    exact str_ne (t := ⟨s.buffer.moved r.content.length pos, false⟩) hblock
      (IntegerType.castInt_ge pos) hbefore
  · rw [hnone] at hcall
    cases hcall

/-- From the end of the data, a seek elsewhere or an offset that does not fit is seen in what
the stream shows. -/
theorem step_ne (hA : A.NeverFails) (h : Follows s r) (hend : r.cursor = r.content.length)
    {c : OutputCall α} (hinside : r.Inside c) (hnot : ¬(OffsetsFit s r c ∧ r.AtEnd c)) :
    s.step A c ≠ some ((r.next c).1, t) := by
  intro hstep
  obtain ⟨u, hcall, hu⟩ := Option.map_eq_some_iff.mp hstep
  obtain ⟨hstr, rfl⟩ := Prod.mk.inj hu
  rcases hinside.cases with ⟨ch, rfl⟩ | ⟨pos, htarget, hpos, hgoes⟩
  · have hpptr := h.2.pptr_eq
    have hfar : s.buffer.block.length ≤ r.cursor ∧ 2 ^ 31 ≤ r.cursor := by
      by_contra hsmall
      exact hnot ⟨fun hfull => by omega, WrittenBytes.atEnd_put ch⟩
    exact put_ne hA h hend hfar.1 hfar.2 hcall hstr
  · rw [offsetsFit_iff htarget, WrittenBytes.atEnd_iff htarget] at hnot
    refine seek_ne h htarget hpos hnot hcall ?_
    rw [hstr, WrittenBytes.next, hgoes]

/-! ## Whole runs -/

/-- While the offsets fit, nothing is lost: `str()` is what was written up to the cursor,
through any mix of overwriting, seeking and growing. -/
theorem str_up_to_cursor (hA : A.NeverFails) (a : σ) {initialSize : Nat}
    (hsize : initialSize < 2 ^ 63) :
    ∃ s, ofSize A a initialSize = .ok s ∧ ∀ calls,
      Within WrittenBytes.upToCursor WrittenBytes.Inside ⟨[], 0⟩ calls →
      Along (step A) WrittenBytes.upToCursor OffsetsFit s ⟨[], 0⟩ calls →
        trace (step A) s calls =
          some (answers WrittenBytes.upToCursor ⟨[], 0⟩ calls) := by
  obtain ⟨s, hs, hfollows⟩ := ofSize_spec hA a hsize
  refine ⟨s, hs, fun calls hinside hfit => ?_⟩
  refine ReferenceTrace.trace_eq_of_along ?_ hfollows ((hinside.along s).and hfit)
  intro s r c h hc
  obtain ⟨t, hcall, ht⟩ := call_spec hA h hc.1 hc.2
  refine ⟨t, ?_, ht⟩
  rw [step_eq hcall, OutputMemoryStreamBuffer.str_eq ht.2]
  rfl

/-- **When the stream keeps everything.**  `str()` is the content of the array after each call
just when the seeks all go to its end, and the offsets fit. -/
theorem str_content_iff (hA : A.NeverFails) (a : σ) {initialSize : Nat}
    (hsize : initialSize < 2 ^ 63) :
    ∃ s, ofSize A a initialSize = .ok s ∧ ∀ calls,
      Within WrittenBytes.next WrittenBytes.Inside ⟨[], 0⟩ calls →
      (trace (step A) s calls = some (answers WrittenBytes.next ⟨[], 0⟩ calls) ↔
        Along (step A) WrittenBytes.next (fun s r c => OffsetsFit s r c ∧ r.AtEnd c) s
          ⟨[], 0⟩ calls) := by
  obtain ⟨s, hs, hfollows⟩ := ofSize_spec hA a hsize
  refine ⟨s, hs, fun calls hinside => ?_⟩
  have hrelated : FollowsAtEnd s ⟨[], 0⟩ := ⟨hfollows, rfl⟩
  refine ReferenceTrace.trace_eq_iff_within ?_ ?_ hrelated (hinside.along s)
  · rintro s r c ⟨h, hend⟩ hin ⟨hfit, hat⟩
    obtain ⟨t, hcall, ht⟩ := call_spec hA h hin hfit
    have hend' := WrittenBytes.call_atEnd hend hin hat
    refine ⟨t, ?_, ht, hend'⟩
    rw [step_eq hcall, OutputMemoryStreamBuffer.str_eq ht.2, hend', List.take_length]
    rfl
  · rintro s r c t ⟨h, hend⟩ hin hnot
    exact step_ne hA h hend hin hnot

/-- An allocator of zeroed blocks. -/
def heap : Allocator Unit Char where
  allocate a n := (some (List.replicate n '\x00'), a)
  deallocate a _ := a

theorem heap_neverFails : heap.NeverFails :=
  fun a _ => ⟨_, a, rfl, List.length_replicate⟩

/-- Two characters in a block of one, and a seek to their end. -/
theorem str_content_iff_example :
    ∃ s, ofSize heap () 1 = .ok s ∧
      (trace (step heap) s [.put 'a', .put 'b', .seekp 2] =
          some (answers WrittenBytes.next ⟨[], 0⟩ [.put 'a', .put 'b', .seekp 2]) ↔
        Along (step heap) WrittenBytes.next (fun s r c => OffsetsFit s r c ∧ r.AtEnd c) s
          ⟨[], 0⟩ [.put 'a', .put 'b', .seekp 2]) := by
  obtain ⟨s, hs, h⟩ := str_content_iff heap_neverFails () (show 1 < 2 ^ 63 by decide)
  exact ⟨s, hs, h _ ⟨trivial, trivial, ⟨2, rfl, Nat.le_refl 2⟩, trivial⟩⟩

/-- After "ab" a seek to the beginning leaves nothing to be shown. -/
theorem seek_back_hides :
    ((ofSize heap () 4).toOption.bind fun s =>
        trace (step heap) s [.put 'a', .put 'b', .seekp 0]) =
        some [.ok ['a'], .ok ['a', 'b'], .ok []] ∧
      answers WrittenBytes.next ⟨[], 0⟩ [.put 'a', .put 'b', .seekp 0] =
        [.ok ['a'], .ok ['a', 'b'], .ok ['a', 'b']] ∧
      ((ofSize heap () 4).toOption.bind fun s =>
        trace (step heap) s [.put 'a', .put 'b', .seekp 0]) ≠
        some (answers WrittenBytes.next ⟨[], 0⟩ [.put 'a', .put 'b', .seekp 0]) :=
  ⟨rfl, rfl, by decide⟩

end OutputMemoryStream

end LiteMQ.Gears
