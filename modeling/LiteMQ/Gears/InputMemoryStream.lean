import LiteMQ.Foundation.IntegerType
import LiteMQ.Foundation.StreamPosition
import LiteMQ.Foundation.ReferenceTrace

/-!
# The input memory stream

A stream buffer over a memory region that is given: the get area is the whole region, so
the position of the stream is the get pointer and nothing is ever refilled.  The reads come
from `std::basic_streambuf`; the seeks are the program's own.

The reference is a cursor over the bytes.  Answer for answer, the stream is that cursor as
long as no seek moves: `seekpos` accepts its target and leaves the get pointer where it is.
-/

namespace LiteMQ.Gears

open IntegerType (int64)
open ReferenceTrace (trace answers Within Along)

variable {α : Type*}

/-- The get area of the stream buffer: `eback()` is 0, `egptr()` the number of bytes. -/
structure InputMemoryStreamBuffer (α : Type*) where
  bytes : List α
  gptr : Nat
  gptr_le : gptr ≤ bytes.length

namespace InputMemoryStreamBuffer

/-! ## The source -/

/-- The constructor: `setg(ptr, ptr, ptr + size)`. -/
def ofRegion (bytes : List α) : InputMemoryStreamBuffer α := ⟨bytes, 0, Nat.zero_le _⟩

variable (s : InputMemoryStreamBuffer α)

/-- `egptr()` -/
def egptr : Nat := s.bytes.length

/-- `data()`, as an offset in the region. -/
def data : Nat := s.gptr

def size : Nat := s.egptr - s.gptr

/-- The character at the get pointer; `none` is `eof`. -/
def underflow : Option α := s.bytes[s.gptr]?

/-- `std::basic_streambuf::sbumpc`, with `uflow` at the end of the get area. -/
def sbumpc : Option α × InputMemoryStreamBuffer α :=
  if h : s.gptr < s.bytes.length then
    (some s.bytes[s.gptr], { s with gptr := s.gptr + 1, gptr_le := h })
  else (s.underflow, s)

/-- `std::basic_streambuf::sgetn`: characters up to a number of them or the end. -/
def sgetn : InputMemoryStreamBuffer α → Nat → List α × InputMemoryStreamBuffer α
  | s, 0 => ([], s)
  | s, n + 1 =>
      match s.sbumpc with
      | (some ch, t) =>
          let (text, u) := t.sgetn n
          (ch :: text, u)
      | (none, t) => ([], t)

/-- `seekpos` -/
def seekpos (pos : Int) (which : Openmode) : Int × InputMemoryStreamBuffer α :=
  if which ≠ .input then (-1, s)
  else if pos < 0 ∨ s.egptr < pos then (-1, s)
  -- The get pointer is not set.
  else (pos, s)

/-- `seekoff`; `none` when the position overflows. -/
def seekoff (off : Int) (way : Seekdir) (which : Openmode) :
    Option (Int × InputMemoryStreamBuffer α) :=
  if which ≠ .input then some (-1, s)
  else
    match way with
    | .beg => some (s.seekpos off which)
    | .cur => (int64.checked (off + s.gptr)).map fun pos => s.seekpos pos which
    | .fromEnd => (int64.checked (s.egptr + off)).map fun pos => s.seekpos pos which
    | .other => some (-1, s)

end InputMemoryStreamBuffer

namespace InputMemoryStream

/-- The calls on the stream: reads and input seeks. -/
inductive InputCall
  | sbumpc
  | sgetn (n : Nat)
  | seekoff (off : Int) (way : Seekdir)
  | seekpos (pos : Int)

/-- What a call returns. -/
inductive Result (α : Type*)
  | char (ch : Option α)
  | chars (text : List α)
  | position (pos : Int)
  deriving DecidableEq

/-- What a call returns, and what `data()` and `size()` say after it. -/
structure Answer (α : Type*) where
  result : Result α
  data : Nat
  size : Nat
  deriving DecidableEq

/-- A call, and the state behind it. -/
def call (s : InputMemoryStreamBuffer α) :
    InputCall → Option (Result α × InputMemoryStreamBuffer α)
  | .sbumpc => some (.char s.sbumpc.1, s.sbumpc.2)
  | .sgetn n => some (.chars (s.sgetn n).1, (s.sgetn n).2)
  | .seekoff off way => (s.seekoff off way .input).map fun next => (.position next.1, next.2)
  | .seekpos pos => some (.position (s.seekpos pos .input).1, (s.seekpos pos .input).2)

def step (s : InputMemoryStreamBuffer α) (c : InputCall) :
    Option (Answer α × InputMemoryStreamBuffer α) :=
  (call s c).map fun next => (⟨next.1, next.2.data, next.2.size⟩, next.2)

end InputMemoryStream

/-! ## The reference -/

/-- A cursor over the bytes of a region. -/
structure ByteCursor (α : Type*) where
  bytes : List α
  position : Nat

namespace ByteCursor

open InputMemoryStream (InputCall Result Answer)

variable (r : ByteCursor α)

/-- What is not read yet. -/
def unread : List α := r.bytes.drop r.position

/-- Go on by as many bytes. -/
def advance (n : Nat) : ByteCursor α := { r with position := r.position + n }

/-- The place that a seek names. -/
def target : InputCall → Option Int
  | .seekoff off way => way.target r.bytes.length r.position off
  | .seekpos pos => some pos
  | _ => none

/-- A seek moves to a target in the region, and fails without one. -/
def seek : Option Int → Result α × ByteCursor α
  | some pos =>
      if 0 ≤ pos ∧ pos ≤ r.bytes.length then (.position pos, { r with position := pos.toNat })
      else (.position (-1), r)
  | none => (.position (-1), r)

def call : InputCall → Result α × ByteCursor α
  | .sbumpc => (.char r.unread.head?, r.advance (r.unread.take 1).length)
  | .sgetn n => (.chars (r.unread.take n), r.advance (r.unread.take n).length)
  | .seekoff off way => r.seek (r.target (.seekoff off way))
  | .seekpos pos => r.seek (r.target (.seekpos pos))

/-- A call, and where the bytes not read yet begin and how many they are. -/
def next (c : InputCall) : Answer α × ByteCursor α :=
  (⟨(r.call c).1, (r.call c).2.position, (r.call c).2.unread.length⟩, (r.call c).2)

end ByteCursor

/-! ## The reads -/

/-- The stream stands where the cursor does. -/
def StandsAt (s : InputMemoryStreamBuffer α) (r : ByteCursor α) : Prop :=
  s.bytes = r.bytes ∧ s.gptr = r.position

theorem StandsAt.data_size {s : InputMemoryStreamBuffer α} {r : ByteCursor α} (h : StandsAt s r) :
    s.data = r.position ∧ s.size = r.unread.length := by
  obtain ⟨hbytes, hgptr⟩ := h
  rw [InputMemoryStreamBuffer.size, InputMemoryStreamBuffer.egptr, ByteCursor.unread,
    List.length_drop, hbytes, hgptr]
  exact ⟨hgptr, rfl⟩

namespace InputMemoryStreamBuffer

variable {s : InputMemoryStreamBuffer α} {r : ByteCursor α}

theorem sbumpc_spec (h : StandsAt s r) :
    s.sbumpc.1 = r.unread.head? ∧ StandsAt s.sbumpc.2 (r.advance (r.unread.take 1).length) := by
  obtain ⟨hbytes, hgptr⟩ := h
  unfold sbumpc
  split
  next hlt =>
    have hunread : r.unread = s.bytes[s.gptr] :: s.bytes.drop (s.gptr + 1) := by
      rw [ByteCursor.unread, ← hbytes, ← hgptr, List.drop_eq_getElem_cons hlt]
    rw [hunread]
    exact ⟨rfl, hbytes, congrArg (· + 1) hgptr⟩
  next hle =>
    have hunread : r.unread = [] := by
      rw [ByteCursor.unread, ← hbytes, ← hgptr, List.drop_of_length_le (by omega)]
    rw [hunread]
    exact ⟨List.getElem?_eq_none (by omega), hbytes, hgptr⟩

/-- A block read delivers what there is of the bytes not read yet. -/
theorem sgetn_spec (n : Nat) (h : StandsAt s r) :
    (s.sgetn n).1 = r.unread.take n ∧
      StandsAt (s.sgetn n).2 (r.advance (r.unread.take n).length) := by
  induction n generalizing s r with
  | zero => exact ⟨(List.take_zero ..).symm, by simpa [sgetn, ByteCursor.advance] using h⟩
  | succ n ih =>
      obtain ⟨hfirst, hnext⟩ := sbumpc_spec h
      rw [sgetn]
      cases hunread : r.unread with
      | nil =>
          rw [hunread] at hfirst hnext
          rw [show s.sbumpc = (none, s.sbumpc.2) from Prod.ext hfirst rfl]
          exact ⟨rfl, hnext⟩
      | cons ch rest =>
          rw [hunread] at hfirst hnext
          obtain ⟨htext, hend⟩ := ih hnext
          have hrest : (r.advance 1).unread = rest := by
            rw [ByteCursor.unread, ByteCursor.advance, ← List.drop_drop]
            exact congrArg (List.drop 1) hunread
          rw [show s.sbumpc = (some ch, s.sbumpc.2) from Prod.ext hfirst rfl]
          simp only [List.take_succ_cons, List.take_zero, List.length_singleton, hrest]
            at htext hend
          refine ⟨?_, ?_⟩
          · simp only [List.take_succ_cons, htext]
          · simpa [ByteCursor.advance, Nat.add_assoc, Nat.add_comm 1] using hend

/-! ## The seeks -/

/-- What a seek returns for the place that it names, in so many bytes. -/
def seekResult (size : Nat) : Option Int → Int
  | some pos => if 0 ≤ pos ∧ pos ≤ size then pos else -1
  | none => -1

/-- `seekpos` never moves the get pointer. -/
theorem seekpos_eq (pos : Int) :
    s.seekpos pos .input = (seekResult s.bytes.length (some pos), s) := by
  rw [seekpos, if_neg (by simp), egptr, seekResult]
  by_cases hpos : 0 ≤ pos ∧ pos ≤ s.bytes.length
  · rw [if_neg (by omega), if_pos hpos]
  · rw [if_pos (by omega), if_neg hpos]

/-- The sum of a relative seek does not overflow. -/
def SumFits (size position : Nat) (off : Int) (way : Seekdir) : Prop :=
  way = .beg ∨ ∀ pos ∈ way.target size position off, int64.Fits pos

/-- `seekoff` is `seekpos` for the place that it names, unless the sum overflows. -/
theorem seekoff_eq (off : Int) (way : Seekdir)
    (h : SumFits s.bytes.length s.gptr off way) :
    s.seekoff off way .input =
      some (seekResult s.bytes.length (way.target s.bytes.length s.gptr off), s) := by
  have hfits : way ≠ .beg → ∀ pos ∈ way.target s.bytes.length s.gptr off, int64.Fits pos :=
    h.resolve_left
  rw [seekoff.eq_def, if_neg (by simp)]
  cases way with
  | beg =>
      show some (s.seekpos off .input) = _
      rw [seekpos_eq, Seekdir.target, Seekdir.base, Option.map_some, zero_add]
  | cur =>
      show (int64.checked (off + s.gptr)).map _ = _
      have hsum : int64.Fits (s.gptr + off) := hfits (by simp) _ rfl
      rw [add_comm off, IntegerType.checked_of_fits hsum, Option.map_some, seekpos_eq]
      rfl
  | fromEnd =>
      show (int64.checked (s.egptr + off)).map _ = _
      have hsum : int64.Fits (s.egptr + off) := hfits (by simp) _ rfl
      rw [IntegerType.checked_of_fits hsum, Option.map_some, seekpos_eq]
      rfl
  | other => rfl

theorem seekoff_overflow (off : Int) (way : Seekdir)
    (h : ¬SumFits s.bytes.length s.gptr off way) : s.seekoff off way .input = none := by
  obtain ⟨hway, hfits⟩ := not_or.mp h
  rw [seekoff.eq_def, if_neg (by simp)]
  cases way with
  | beg => exact absurd rfl hway
  | cur =>
      have hsum : ¬int64.Fits (s.gptr + off) := by simpa [Seekdir.target, Seekdir.base] using hfits
      show (int64.checked (off + s.gptr)).map _ = _
      rw [add_comm off, IntegerType.checked_of_not_fits hsum, Option.map_none]
  | fromEnd =>
      have hsum : ¬int64.Fits (s.egptr + off) := by
        simpa [Seekdir.target, Seekdir.base, egptr] using hfits
      show (int64.checked (s.egptr + off)).map _ = _
      rw [IntegerType.checked_of_not_fits hsum, Option.map_none]
  | other => simp [Seekdir.target, Seekdir.base] at hfits

end InputMemoryStreamBuffer

namespace ByteCursor

open InputMemoryStreamBuffer (seekResult SumFits)
open InputMemoryStream (InputCall)

variable (r : ByteCursor α)

/-- A seek that may be answered without moving: its target is where the cursor stands, or
outside the region. -/
def Stays (target : Option Int) : Prop :=
  ∀ pos ∈ target, 0 ≤ pos → pos ≤ r.bytes.length → pos = r.position

theorem seek_result (target : Option Int) :
    (r.seek target).1 = .position (seekResult r.bytes.length target) := by
  cases target with
  | none => rfl
  | some pos =>
      rw [seek, seekResult]
      by_cases hpos : 0 ≤ pos ∧ pos ≤ r.bytes.length
      · rw [if_pos hpos, if_pos hpos]
      · rw [if_neg hpos, if_neg hpos]

/-- The cursor is not moved just by the seeks that may be answered so. -/
theorem seek_position_iff (target : Option Int) :
    (r.seek target).2.position = r.position ↔ r.Stays target := by
  cases target with
  | none =>
      refine ⟨fun _ pos hpos => ?_, fun _ => rfl⟩
      cases hpos
  | some pos =>
      rw [seek, Stays]
      by_cases hpos : 0 ≤ pos ∧ pos ≤ r.bytes.length
      · rw [if_pos hpos]
        simp only [Option.mem_def, Option.some.injEq, forall_eq']
        omega
      · rw [if_neg hpos]
        simp only [Option.mem_def, Option.some.injEq, forall_eq', true_iff]
        omega

theorem seek_bytes (target : Option Int) : (r.seek target).2.bytes = r.bytes := by
  unfold seek
  split
  · split <;> rfl
  · rfl

/-- The calls that the stream answers as the cursor does: the reads, and the seeks that do
not move and whose sum does not overflow. -/
def Answered : InputCall → Prop
  | .seekoff off way =>
      SumFits r.bytes.length r.position off way ∧
        r.Stays (way.target r.bytes.length r.position off)
  | .seekpos pos => r.Stays (some pos)
  | _ => True

end ByteCursor

namespace InputMemoryStream

open InputMemoryStreamBuffer (seekResult)

variable {s : InputMemoryStreamBuffer α} {r : ByteCursor α}

theorem step_eq {c : InputCall} {result : Result α} {t : InputMemoryStreamBuffer α}
    (h : call s c = some (result, t)) : step s c = some (⟨result, t.data, t.size⟩, t) := by
  rw [step, h]
  rfl

/-- A call that ends where the cursor ends is answered as by the cursor. -/
theorem step_eq_next {c : InputCall} {t : InputMemoryStreamBuffer α}
    (h : call s c = some ((r.call c).1, t)) (ht : StandsAt t (r.call c).2) :
    step s c = some ((r.next c).1, t) := by
  rw [step_eq h, ht.data_size.1, ht.data_size.2]
  rfl

/-- The reads are those of the cursor, and so are the seeks that need not move. -/
theorem step_answered {c : InputCall} (h : StandsAt s r) (hc : r.Answered c) :
    ∃ t, step s c = some ((r.next c).1, t) ∧ StandsAt t (r.next c).2 := by
  obtain ⟨hbytes, hgptr⟩ := id h
  have hseek : ∀ target, r.Stays target → StandsAt s (r.seek target).2 := by
    intro target hstays
    exact ⟨hbytes.trans (r.seek_bytes target).symm,
      hgptr.trans ((r.seek_position_iff target).2 hstays).symm⟩
  cases c with
  | sbumpc =>
      obtain ⟨hresult, ht⟩ := InputMemoryStreamBuffer.sbumpc_spec h
      exact ⟨_, step_eq_next (by rw [call, hresult]; rfl) ht, ht⟩
  | sgetn n =>
      obtain ⟨hresult, ht⟩ := InputMemoryStreamBuffer.sgetn_spec n h
      exact ⟨_, step_eq_next (by rw [call, hresult]; rfl) ht, ht⟩
  | seekoff off way =>
      obtain ⟨hfits, hstays⟩ := hc
      have ht := hseek _ hstays
      refine ⟨s, step_eq_next ?_ ht, ht⟩
      rw [call, InputMemoryStreamBuffer.seekoff_eq off way (by rw [hbytes, hgptr]; exact hfits),
        hbytes, hgptr]
      exact congrArg (fun result => some (result, s)) (r.seek_result _).symm
  | seekpos pos =>
      have ht := hseek (some pos) hc
      refine ⟨s, step_eq_next ?_ ht, ht⟩
      rw [call, InputMemoryStreamBuffer.seekpos_eq, hbytes]
      exact congrArg (fun result => some (result, s)) (r.seek_result (some pos)).symm

/-- Any other seek overflows, or leaves the stream elsewhere than the cursor. -/
theorem step_not_answered {c : InputCall} {t : InputMemoryStreamBuffer α} (h : StandsAt s r)
    (hc : ¬r.Answered c) : step s c ≠ some ((r.next c).1, t) := by
  obtain ⟨hbytes, hgptr⟩ := h
  intro hstep
  -- a seek that is answered leaves the get pointer alone
  have hmoved : ∀ target result, call s c = some (result, s) →
      (r.call c).2 = (r.seek target).2 → r.Stays target := by
    intro target result hcall hnext
    rw [step_eq hcall] at hstep
    have hdata := congrArg Answer.data (Prod.mk.inj (Option.some.inj hstep)).1
    rw [← r.seek_position_iff, ← hnext]
    exact hdata.symm.trans hgptr
  cases c with
  | sbumpc => exact hc trivial
  | sgetn n => exact hc trivial
  | seekoff off way =>
      by_cases hfits : InputMemoryStreamBuffer.SumFits s.bytes.length s.gptr off way
      · have hcall : call s (.seekoff off way) =
            some (.position (seekResult s.bytes.length (way.target s.bytes.length s.gptr off)),
              s) := by
          rw [call, InputMemoryStreamBuffer.seekoff_eq off way hfits]
          rfl
        exact hc ⟨by rwa [← hbytes, ← hgptr], hmoved _ _ hcall rfl⟩
      · rw [step, call, InputMemoryStreamBuffer.seekoff_overflow off way hfits] at hstep
        cases hstep
  | seekpos pos =>
      have hcall : call s (.seekpos pos) =
          some (.position (seekResult s.bytes.length (some pos)), s) := by
        rw [call, InputMemoryStreamBuffer.seekpos_eq]
      exact hc (hmoved (some pos) _ hcall rfl)

/-- **When the stream is a cursor.**  All calls on a region are answered as by a cursor over
its bytes just when no seek of them would move the cursor, or overflows. -/
theorem input_cursor_iff (bytes : List α) (calls : List InputCall) :
    trace step (.ofRegion bytes) calls =
        some (answers ByteCursor.next ⟨bytes, 0⟩ calls) ↔
      Within ByteCursor.next ByteCursor.Answered ⟨bytes, 0⟩ calls := by
  have hstands : StandsAt (.ofRegion bytes) ⟨bytes, 0⟩ := ⟨rfl, rfl⟩
  refine ReferenceTrace.trace_eq_iff ?_ ?_ hstands calls
  · intro s r c h hc
    exact step_answered h hc
  · intro s r c t h hc
    exact step_not_answered h hc

/-- In "ab" the seek to 1 returns 1, and the character read then is the first one. -/
theorem input_seek_stays :
    trace step (.ofRegion ['a', 'b']) [.seekpos 1, .sbumpc] =
        some [⟨.position 1, 0, 2⟩, ⟨.char (some 'a'), 1, 1⟩] ∧
      answers ByteCursor.next ⟨['a', 'b'], 0⟩ [.seekpos 1, .sbumpc] =
        [⟨.position 1, 1, 1⟩, ⟨.char (some 'b'), 2, 0⟩] ∧
      trace step (.ofRegion ['a', 'b']) [.seekpos 1, .sbumpc] ≠
        some (answers ByteCursor.next ⟨['a', 'b'], 0⟩ [.seekpos 1, .sbumpc]) :=
  ⟨rfl, rfl, by decide⟩

end InputMemoryStream

end LiteMQ.Gears
