import LiteMQ.Foundation.Truncation
import LiteMQ.Gears.Concat
import LiteMQ.Gears.OutputBufferStream
import LiteMQ.Gears.SimpleFormatter
import Mathlib.Data.List.TakeWhile
import Mathlib.Data.UInt

/-!
# The text of an exception

An exception keeps its text in an array of 10240 characters.  The text is composed in an
`ErrorStream`, or by `throw_errno_exception` in an array of the size of the exception; and a
function that catches an exception composes the text of its own out of `what()`.  So the text
goes through one bounded buffer after the other.

`Report` is how an exception came about, with what the memory of each buffer held before.
However deep they are nested and whatever several children have thrown at once, no buffer is
left, and `what()` is the beginning of the whole text (`Report.what_spec`).
-/

namespace LiteMQ.Gears

open IntegerType (int32 sizeT)
open OutputBufferStream (Stream Filled Kept)
open Simple (ascii)
open StringManip (Arg CString concat intToStr textOf texts written)
open Truncation (AgreeUpTo)

/-- `none` when an intermediate value overflows. -/
abbrev Outcome := ExceptT Fault Option

/-! ## The source -/

/-- `DESC_EXCEPTION_BUFFER_SIZE` -/
def descBufferSize : Nat := 10 * 1024

/-- The C string that begins here. -/
def StringManip.CString.read : (memory : List UInt8) → Except Fault CString
  | [] => .error .outOfBounds
  | ch :: memory =>
      if h : ch = 0 then .ok ⟨[], List.not_mem_nil⟩
      else do
        let str ← CString.read memory
        .ok ⟨ch :: str.text, List.not_mem_cons_of_ne_of_not_mem (Ne.symm h) str.noNul⟩

namespace DescriptiveException

/-- `while ((*dst++ = *src++) && dst < end) {}` -/
def copyLoop : (dst : List UInt8) → (d : Nat) → (src : List UInt8) → (last : Nat) →
    Except Fault (List UInt8)
  | _, _, [], _ => .error .outOfBounds
  | dst, d, ch :: src, last => do
      let dst ← Buffer.store dst d ch
      if ch ≠ 0 ∧ d + 1 < last then copyLoop dst (d + 1) src last else .ok dst

/-- `copy_string_`; `none` is the null pointer. -/
def copyString (src : Option (List UInt8)) (dst : List UInt8) (size : Nat) :
    Except Fault (List UInt8) :=
  match src with
  | some src => do
      let dst ← copyLoop dst 0 src (size - 1)
      Buffer.store dst (size - 1) 0
  | none => Buffer.store dst 0 0

/-- `init_(const char*)` -/
def initString (description : Option (List UInt8)) (cells : List UInt8) :
    Except Fault (List UInt8) :=
  copyString description cells descBufferSize

/-- `init_(const char*, size_t)`, for the elements of a substring. -/
def initRange (description cells : List UInt8) : Except Fault (List UInt8) := do
  let size := description.length
  let (size, cells) ←
    if size ≠ 0 then do
      let size := if size > descBufferSize - 1 then descBufferSize - 1 else size
      let cells ← Buffer.storeRange cells 0 (description.take size)
      .ok (size, cells)
    else .ok (size, cells)
  Buffer.store cells size 0

/-- `CompositeException(const char*)`: the base is constructed without a text first. -/
def ofString (description : List UInt8) (cells : List UInt8) : Except Fault (List UInt8) := do
  let cells ← initRange [] cells
  initString (some description) cells

/-- `CompositeException(const SubString&)` -/
def ofSubString (description cells : List UInt8) : Except Fault (List UInt8) := do
  let cells ← initRange [] cells
  initRange description cells

/-- `DescriptiveException(const DescriptiveException&)` -/
def copy (description cells : List UInt8) : Except Fault (List UInt8) :=
  initString (some description) cells

end DescriptiveException

/-- What `compose_safe` gives `concat`, with the text of the error number. -/
def errnoArgs (args : List Arg) (error message : CString) : List Arg :=
  args ++ [.cString ⟨ascii ": errno = ", by decide⟩, .cString error,
    .cString ⟨ascii ": ", by decide⟩, .cString message]

/-- What `throw_errno_exception` gets, and what `error_message` makes of `strerror_r`.  The least
`int` would not be written; and an integer among the arguments only when there is room to
spare. -/
structure ErrnoCause where
  error : Int
  args : List Arg
  message : CString
  fits : int32.Fits error
  not_min : error ≠ int32.min
  integer_fits : (∀ arg ∈ args, arg.isInteger = false) ∨
    (texts (errnoArgs args ⟨textOf error, StringManip.textOf_noNul error⟩ message)).length + 24 ≤
      descBufferSize

/-- `ErrnoHelper::compose_safe` -/
def composeSafe (string errorBuf : List UInt8) (cause : ErrnoCause) : Outcome (List UInt8) := do
  let (_, errorBuf) ← (ExceptT.mk (intToStr int32 cause.error errorBuf errorBuf.length) :
    Outcome (Nat × List UInt8))
  let errorBuf ← CString.read errorBuf
  ExceptT.mk (concat string string.length (errnoArgs cause.args errorBuf cause.message))

/-- What the local variables of a function that throws hold before they are constructed: the
exception, the `ErrorStream`, and the arrays of `throw_errno_exception`.  The sizes of the
stream and of the array `string` are those of exception classes. -/
structure Frame where
  description : List UInt8
  stream : List UInt8
  string : List UInt8
  errorBuf : List UInt8
  length_description : description.length = descBufferSize
  length_stream : descBufferSize < stream.length
  stream_le : stream.length ≤ 2 ^ 63
  length_string : descBufferSize ≤ string.length
  length_errorBuf : errorBuf.length = 128

mutual

/-- How an exception came about. -/
inductive Report
  /-- `throw Exception(text)` -/
  | thrown (frame : Frame) (text : List UInt8)
  /-- `throw_errno_exception` -/
  | errno (frame : Frame) (cause : ErrnoCause)
  /-- the exception of `throw Exception(ostr.str())` -/
  | composed (frame : Frame) (pieces : Pieces)
  /-- a copy -/
  | copied (frame : Frame) (exception : Report)

/-- What is written to an `ErrorStream`. -/
inductive Pieces
  | nil
  /-- `ostr << text` -/
  | text (text : List UInt8) (rest : Pieces)
  /-- `ostr << ex.what()` -/
  | what (exception : Report) (rest : Pieces)
  /-- `ostr << all_errors.str()`, for another `ErrorStream` -/
  | str (frame : Frame) (allErrors : Pieces) (rest : Pieces)
  /-- `ostr << error`, for the array of a `compose_safe` -/
  | error (frame : Frame) (cause : ErrnoCause) (rest : Pieces)

end

/-- What an `ErrorStream` shows after these writes. -/
def ErrorStream.run (frame : Frame) (writes : Stream UInt8 → Outcome (Stream UInt8)) :
    Outcome (List UInt8) := do
  let ostr ← OutputBufferStream.ofBuffer frame.stream.length frame.stream
  let ostr ← writes ostr
  ostr.buffer.str

mutual

/-- `description_` -/
def Report.description : Report → Outcome (List UInt8)
  | .thrown frame text => DescriptiveException.ofSubString text frame.description
  | .errno frame cause => do
      let string ← composeSafe frame.string frame.errorBuf cause
      DescriptiveException.ofString string frame.description
  | .composed frame pieces => do
      let text ← ErrorStream.run frame fun ostr => pieces.write frame.stream.length ostr
      DescriptiveException.ofSubString text frame.description
  | .copied frame exception => do
      let description ← exception.description
      DescriptiveException.copy description frame.description

/-- The stream behind the writes. -/
def Pieces.write (size : Nat) : Pieces → Stream UInt8 → Outcome (Stream UInt8)
  | .nil, ostr => pure ostr
  | .text text rest, ostr => do
      let ostr ← ostr.write (FixedBufferAllocator.allocator size) text
      rest.write size ostr
  | .what exception rest, ostr => do
      let description ← exception.description
      let what ← CString.read description
      let ostr ← ostr.write (FixedBufferAllocator.allocator size) what.text
      rest.write size ostr
  | .str frame allErrors rest, ostr => do
      let text ← ErrorStream.run frame fun all => allErrors.write frame.stream.length all
      let ostr ← ostr.write (FixedBufferAllocator.allocator size) text
      rest.write size ostr
  | .error frame cause rest, ostr => do
      let string ← composeSafe frame.string frame.errorBuf cause
      let error ← CString.read string
      let ostr ← ostr.write (FixedBufferAllocator.allocator size) error.text
      rest.write size ostr

end

/-- `what()` -/
def Report.what (exception : Report) : Outcome CString := do
  let description ← exception.description
  CString.read description

/-- `str()` of an `ErrorStream` to which these pieces were written. -/
def Pieces.shown (frame : Frame) (pieces : Pieces) : Outcome (List UInt8) :=
  ErrorStream.run frame fun ostr => pieces.write frame.stream.length ostr

/-! ## One exception -/

/-- A text up to its first NUL. -/
def cut (text : List UInt8) : List UInt8 := text.takeWhile (· ≠ 0)

theorem cut_noNul (text : List UInt8) : 0 ∉ cut text := by
  intro hmem
  have hne := List.mem_takeWhile_imp hmem
  simp at hne

theorem cut_of_noNul {text : List UInt8} (h : 0 ∉ text) : cut text = text := by
  refine List.takeWhile_eq_self_iff.mpr fun ch hch => ?_
  exact decide_eq_true (ne_of_mem_of_not_mem hch h)

/-- A text with a NUL behind it, as a C string with a NUL. -/
theorem exists_cut (text rest : List UInt8) :
    ∃ more, text ++ 0 :: rest = cut text ++ 0 :: more := by
  induction text with
  | nil => exact ⟨rest, rfl⟩
  | cons ch text ih =>
      by_cases hch : ch = 0
      · subst hch
        exact ⟨text ++ 0 :: rest, rfl⟩
      · obtain ⟨more, hmore⟩ := ih
        refine ⟨more, ?_⟩
        rw [cut, List.takeWhile_cons_of_pos (by simpa using hch), List.cons_append,
          List.cons_append, hmore, cut]

theorem read_of_noNul {text : List UInt8} (h : 0 ∉ text) (rest : List UInt8) :
    CString.read (text ++ 0 :: rest) = .ok ⟨text, h⟩ := by
  induction text with
  | nil => rfl
  | cons ch text ih =>
      obtain ⟨hch, htext⟩ := List.ne_and_not_mem_of_not_mem_cons h
      rw [List.cons_append, CString.read, dif_neg (Ne.symm hch), ih htext, Fault.ok_bind]

/-- `description_` has the text with a NUL behind it. -/
def Says (description text : List UInt8) : Prop :=
  description.length = descBufferSize ∧ ∃ rest, description = text ++ 0 :: rest

/-- What there is room for in `description_`. -/
def fitting (text : List UInt8) : List UInt8 := text.take (descBufferSize - 1)

theorem fitting_cut (text : List UInt8) : fitting (cut text) = cut (fitting text) :=
  List.take_takeWhile

/-- What fits of a C string is one. -/
theorem cut_fitting_cut (text : List UInt8) : cut (fitting (cut text)) = fitting (cut text) := by
  rw [← fitting_cut, cut_of_noNul (cut_noNul text)]

theorem length_fitting_le (text : List UInt8) : (fitting text).length ≤ descBufferSize - 1 :=
  List.length_take_le _ _

/-- What `what()` points to. -/
theorem Says.read {description text : List UInt8} (h : Says description text) :
    CString.read description = .ok ⟨cut text, cut_noNul text⟩ := by
  obtain ⟨-, rest, rfl⟩ := h
  obtain ⟨more, hmore⟩ := exists_cut text rest
  rw [hmore, read_of_noNul (cut_noNul text)]

namespace DescriptiveException

variable {cells text : List UInt8}

theorem initRange_spec (hcells : cells.length = descBufferSize) (text : List UInt8) :
    ∃ description, initRange text cells = .ok description ∧ Says description (fitting text) := by
  have hle := length_fitting_le text
  have hpos : 0 < descBufferSize := by decide
  -- without a text there is nothing to copy
  have hinit : initRange text cells = (do
      let cells ← Buffer.storeRange cells 0 (fitting text)
      Buffer.store cells (fitting text).length 0) := by
    rw [initRange]
    by_cases htext : text = []
    · subst htext
      rw [if_neg (by simp), fitting, List.take_nil, Buffer.storeRange_eq_ok (by simp)]
      simp
    · have hsize : (if text.length > descBufferSize - 1 then descBufferSize - 1
          else text.length) = (fitting text).length := by
        rw [fitting, List.length_take]
        split <;> omega
      have htake : text.take (fitting text).length = fitting text := by
        rw [fitting, List.length_take, List.take_eq_take_min, min_comm]
        simp
      rw [if_pos (by simpa using htext)]
      simp only [hsize, htake, Fault.ok_bind]
  have hcopy := Buffer.storeRange_append [] (show (fitting text).length ≤ cells.length by omega)
  obtain ⟨x, rest, hrest⟩ := List.exists_cons_of_ne_nil
    (show cells.drop (fitting text).length ≠ [] by
      rw [← List.length_pos_iff, List.length_drop]
      omega)
  rw [List.nil_append, List.nil_append, List.length_nil, hrest] at hcopy
  refine ⟨fitting text ++ 0 :: rest, ?_, ?_, rest, rfl⟩
  · rw [hinit, hcopy, Fault.ok_bind, Buffer.store_append]
  · have hlength := congrArg List.length hrest
    rw [List.length_drop, List.length_cons] at hlength
    rw [List.length_append, List.length_cons]
    omega

/-- The loop fills the room, or stops at the NUL; with a NUL behind the room that makes no
difference. -/
theorem copyLoop_spec (htext : 0 ∉ text) (more before : List UInt8) {room : List UInt8}
    (hroom : room ≠ []) (beyond : List UInt8) :
    ∃ filled rest, copyLoop (before ++ room ++ beyond) before.length (text ++ 0 :: more)
        (before.length + room.length) = .ok (before ++ filled ++ beyond) ∧
      filled.length = room.length ∧
      filled ++ [0] = text.take room.length ++ 0 :: rest := by
  induction room generalizing text before with
  | nil => exact absurd rfl hroom
  | cons x room ih =>
      cases text with
      | nil =>
          refine ⟨0 :: room, room ++ [0], ?_, rfl, rfl⟩
          rw [List.nil_append, copyLoop, StringManip.store_next, Fault.ok_bind, if_neg (by simp)]
          simp
      | cons ch text =>
          obtain ⟨hch, htext⟩ := List.ne_and_not_mem_of_not_mem_cons htext
          rw [List.cons_append, copyLoop, StringManip.store_next, Fault.ok_bind]
          by_cases hlast : room = []
          · subst hlast
            refine ⟨[ch], [], ?_, rfl, by simp⟩
            rw [if_neg (by simp)]
            simp
          · have hpos := List.length_pos_iff.mpr hlast
            obtain ⟨filled, rest, hloop, hlength, hfilled⟩ :=
              ih htext (before ++ [ch]) hlast
            rw [StringManip.length_next, Nat.add_assoc, Nat.add_comm 1] at hloop
            refine ⟨ch :: filled, rest, ?_, by rw [List.length_cons, hlength, List.length_cons], ?_⟩
            · rw [if_pos ⟨Ne.symm hch, by rw [List.length_cons]; omega⟩, List.length_cons, hloop]
              simp
            · rw [List.cons_append, hfilled, List.length_cons, List.take_succ_cons,
                List.cons_append]

theorem initString_spec (hcells : cells.length = descBufferSize) (htext : 0 ∉ text)
    (more : List UInt8) :
    ∃ description, initString (some (text ++ 0 :: more)) cells = .ok description ∧
      Says description (fitting text) := by
  have hpos : 1 < descBufferSize := by decide
  obtain ⟨room, x, rfl⟩ := (List.eq_nil_or_concat' cells).resolve_left (by
    rintro rfl
    rw [List.length_nil] at hcells
    omega)
  rw [List.length_append, List.length_singleton] at hcells
  have hsize : descBufferSize - 1 = room.length := by omega
  have hroom : room ≠ [] := by
    rintro rfl
    rw [List.length_nil] at hsize
    omega
  obtain ⟨filled, rest, hloop, hlength, hfilled⟩ := copyLoop_spec htext more [] hroom [x]
  rw [List.nil_append, List.nil_append, List.length_nil, Nat.zero_add] at hloop
  refine ⟨filled ++ [0], ?_, ?_, rest, ?_⟩
  · have hstore := Buffer.store_append filled x 0 []
    rw [hlength] at hstore
    simp only [initString, copyString, hsize, hloop, Fault.ok_bind, hstore]
  · rw [List.length_append, List.length_singleton]
    omega
  · rw [fitting, hsize, hfilled]

theorem ofSubString_spec (hcells : cells.length = descBufferSize) (text : List UInt8) :
    ∃ description, ofSubString text cells = .ok description ∧
      Says description (fitting text) := by
  obtain ⟨first, hfirst, hsays⟩ := initRange_spec hcells []
  obtain ⟨description, hinit, htext⟩ := initRange_spec hsays.1 text
  exact ⟨description, by rw [ofSubString, hfirst, Fault.ok_bind, hinit], htext⟩

theorem ofString_spec (hcells : cells.length = descBufferSize) (htext : 0 ∉ text)
    (more : List UInt8) :
    ∃ description, ofString (text ++ 0 :: more) cells = .ok description ∧
      Says description (fitting text) := by
  obtain ⟨first, hfirst, hsays⟩ := initRange_spec hcells []
  obtain ⟨description, hinit, htext⟩ := initString_spec hsays.1 htext more
  exact ⟨description, by rw [ofString, hfirst, Fault.ok_bind, hinit], htext⟩

end DescriptiveException

/-! ## `throw_errno_exception` -/

/-- All that `compose_safe` gives to `concat`. -/
def ErrnoCause.all (cause : ErrnoCause) : List Arg :=
  errnoArgs cause.args ⟨textOf cause.error, StringManip.textOf_noNul cause.error⟩ cause.message

/-- All that `compose_safe` is to compose.  An integer among the arguments loses its last digit
in `concat`. -/
def ErrnoCause.text (cause : ErrnoCause) : List UInt8 := written cause.all

/-- The texts of the arguments go into the array as far as there is room, an integer with room
to spare. -/
theorem leaves_all {string : List UInt8} (hstring : descBufferSize ≤ string.length)
    (cause : ErrnoCause) :
    StringManip.Leaves string [] (cause.text.take (string.length - 1)) cause.all := by
  have hpos : 0 < descBufferSize := by decide
  have hroom : string ≠ [] := by
    rw [← List.length_pos_iff]
    omega
  rcases cause.integer_fits with htexts | hfits
  · have hargs : ∀ arg ∈ cause.all, arg.isInteger = false := by
      intro arg harg
      rcases List.mem_append.mp harg with harg | harg
      · exact htexts arg harg
      · simp only [List.mem_cons, List.not_mem_nil, or_false] at harg
        rcases harg with rfl | rfl | rfl | rfl <;> rfl
    rw [ErrnoCause.text, StringManip.written_of_texts hargs]
    exact StringManip.leaves_texts hargs hroom []
  · have hlength : (texts cause.all).length + 24 ≤ string.length := Nat.le_trans hfits hstring
    have hwritten := StringManip.length_written_le cause.all
    rw [ErrnoCause.text, List.take_of_length_le (by omega)]
    exact StringManip.leaves_written hlength []

/-- The array ends up with the beginning of the text, and a NUL. -/
theorem composeSafe_spec (frame : Frame) (cause : ErrnoCause) :
    ∃ rest, composeSafe frame.string frame.errorBuf cause =
      pure (cause.text.take (frame.string.length - 1) ++ 0 :: rest) := by
  have hdigits := IntegerType.digits10_lt int32 (by decide)
  have herror : intToStr int32 cause.error frame.errorBuf frame.errorBuf.length = _ :=
    StringManip.intToStr_eq cause.fits (StringManip.neg_max_le cause.fits fun h => cause.not_min h.2)
      (show int32.digits10 + 3 ≤ frame.errorBuf.length by rw [frame.length_errorBuf]; omega) le_rfl
  obtain ⟨rest, -, hconcat⟩ := leaves_all frame.length_string cause
  rw [List.append_nil, List.append_nil] at hconcat
  refine ⟨rest, ?_⟩
  rw [composeSafe, herror]
  show (do
    let errorBuf ← (liftM (CString.read (textOf cause.error ++ 0 ::
      frame.errorBuf.drop ((textOf cause.error).length + 1))) : Outcome CString)
    ExceptT.mk (concat frame.string frame.string.length _)) = _
  rw [read_of_noNul (StringManip.textOf_noNul cause.error)]
  exact hconcat

/-! ## Any exception -/

mutual

/-- The text that an exception would have if there was room for it. -/
def Report.fullText : Report → List UInt8
  | .thrown _ text => cut text
  | .errno _ cause => cut cause.text
  | .composed _ pieces => cut pieces.fullText
  | .copied _ exception => exception.fullText

def Pieces.fullText : Pieces → List UInt8
  | .nil => []
  | .text text rest => text ++ rest.fullText
  | .what exception rest => exception.fullText ++ rest.fullText
  | .str _ allErrors rest => allErrors.fullText ++ rest.fullText
  | .error _ cause rest => cut cause.text ++ rest.fullText

end

/-- An `ErrorStream` shows all that its put area holds. -/
theorem str_of_filled {size : Nat} {memory text : List UInt8}
    {s : OutputMemoryStreamBuffer (FixedBufferAllocator UInt8) UInt8}
    (h : Filled size memory s text) (hsize : size ≤ 2 ^ 63) : s.str = .ok text := by
  have hle := h.length_le
  have hcount : s.size = text.length := by
    rw [OutputMemoryStreamBuffer.size, h.pptr_eq, IntegerType.sizeT_of_nat (by omega)]
  rw [OutputMemoryStreamBuffer.str, hcount, h.block_eq]
  exact BasicSubString.ofCount_append _ _

/-- Writes that keep to the put area, and what the stream shows then. -/
theorem run_spec (frame : Frame) {writes : Stream UInt8 → Outcome (Stream UInt8)}
    {text : List UInt8}
    (hwrites : ∀ memory ostr, frame.stream.length ≤ memory.length →
      Kept frame.stream.length memory ostr [] → ∃ ostr' written, writes ostr = pure ostr' ∧
        Kept frame.stream.length memory ostr' written ∧
        AgreeUpTo (descBufferSize - 1) written text) :
    ∃ shown, ErrorStream.run frame writes = pure shown ∧
      AgreeUpTo (descBufferSize - 1) shown text := by
  have hstream := frame.length_stream
  obtain ⟨ostr, hofBuffer, hostr⟩ :=
    OutputBufferStream.ofBuffer_spec (le_refl frame.stream.length) (by omega)
  obtain ⟨ostr', written, hrun, hkept, hagree⟩ := hwrites _ ostr (by simp) hostr
  refine ⟨written.take (frame.stream.length - 1), ?_,
    (Truncation.agreeUpTo_take (by omega) written).trans hagree⟩
  rw [ErrorStream.run, hofBuffer]
  show (do
    let ostr ← writes ostr
    liftM ostr.buffer.str) = _
  rw [hrun, pure_bind, str_of_filled hkept.filled frame.stream_le]
  rfl

/-- One more piece. -/
theorem write_then {size : Nat} {memory written text : List UInt8} {ostr : Stream UInt8}
    (h : Kept size memory ostr written) (hsize : size ≤ memory.length)
    (hpos : descBufferSize < size) (piece : List UInt8)
    {rest : Stream UInt8 → Outcome (Stream UInt8)}
    (hrest : ∀ ostr, Kept size memory ostr (written ++ piece) → ∃ ostr' all,
      rest ostr = pure ostr' ∧ Kept size memory ostr' all ∧
        AgreeUpTo (descBufferSize - 1) all (written ++ piece ++ text)) :
    ∃ ostr' all, (do
        let ostr ← (liftM (ostr.write (FixedBufferAllocator.allocator size) piece) :
          Outcome (Stream UInt8))
        rest ostr) = pure ostr' ∧
      Kept size memory ostr' all ∧
        AgreeUpTo (descBufferSize - 1) all (written ++ piece ++ text) := by
  obtain ⟨next, hwrite, hnext⟩ := OutputBufferStream.write_spec h hsize (by omega) piece
  rw [hwrite]
  exact hrest next hnext

mutual

/-- The text in `description_`, by induction on how the exception came about. -/
theorem Report.description_spec : (exception : Report) →
    ∃ description text, exception.description = pure description ∧ Says description text ∧
      cut text = fitting exception.fullText
  | .thrown frame text => by
      obtain ⟨description, hinit, hsays⟩ :=
        DescriptiveException.ofSubString_spec frame.length_description text
      refine ⟨description, _, ?_, hsays, (fitting_cut text).symm⟩
      rw [Report.description, hinit]
      rfl
  | .errno frame cause => by
      obtain ⟨rest, hcompose⟩ := composeSafe_spec frame cause
      obtain ⟨more, hmore⟩ := exists_cut (cause.text.take (frame.string.length - 1)) rest
      obtain ⟨description, hinit, hsays⟩ := DescriptiveException.ofString_spec
        frame.length_description (cut_noNul _) more
      refine ⟨description, _, ?_, hsays, ?_⟩
      · rw [Report.description, hcompose, pure_bind, hmore, hinit]
        rfl
      · have hstring := frame.length_string
        rw [cut_fitting_cut]
        exact (Truncation.agreeUpTo_take (by omega) cause.text).takeWhile _
  | .composed frame pieces => by
      obtain ⟨shown, hrun, hagree⟩ := run_spec frame
        (fun memory ostr hsize hkept => pieces.write_spec frame.length_stream hsize hkept)
      obtain ⟨description, hinit, hsays⟩ :=
        DescriptiveException.ofSubString_spec frame.length_description shown
      refine ⟨description, _, ?_, hsays, ?_⟩
      · rw [Report.description, hrun, pure_bind, hinit]
        rfl
      · rw [← fitting_cut]
        exact hagree.takeWhile _
  | .copied frame exception => by
      obtain ⟨description, text, hdescription, ⟨hlength, rest, rfl⟩, hcut⟩ :=
        exception.description_spec
      obtain ⟨more, hmore⟩ := exists_cut text rest
      obtain ⟨copied, hcopy, hsays⟩ := DescriptiveException.initString_spec
        frame.length_description (cut_noNul text) more
      refine ⟨copied, _, ?_, hsays, ?_⟩
      · rw [Report.description, hdescription, pure_bind, DescriptiveException.copy, hmore, hcopy]
        rfl
      · rw [cut_fitting_cut, hcut]
        exact Truncation.agreeUpTo_take le_rfl _

/-- The stream behind the pieces, and what it holds. -/
theorem Pieces.write_spec : (pieces : Pieces) → {size : Nat} → {memory written : List UInt8} →
    {ostr : Stream UInt8} → (hpos : descBufferSize < size) → (hsize : size ≤ memory.length) →
    Kept size memory ostr written →
    ∃ ostr' all, pieces.write size ostr = pure ostr' ∧ Kept size memory ostr' all ∧
      AgreeUpTo (descBufferSize - 1) all (written ++ pieces.fullText)
  | .nil, _, _, written, ostr, _, _, h => by
      refine ⟨ostr, written, by rw [Pieces.write], h, ?_⟩
      rw [Pieces.fullText, List.append_nil]
      exact AgreeUpTo.refl ..
  | .text text rest, _, _, written, ostr, hpos, hsize, h => by
      rw [Pieces.write, Pieces.fullText, ← List.append_assoc]
      exact write_then h hsize hpos text fun ostr' h' => rest.write_spec hpos hsize h'
  | .what exception rest, _, _, written, ostr, hpos, hsize, h => by
      obtain ⟨description, text, hdescription, hsays, hcut⟩ := exception.description_spec
      obtain ⟨ostr', all, hwrite, hkept, hagree⟩ := write_then h hsize hpos (cut text)
        fun ostr' h' => rest.write_spec hpos hsize h'
      refine ⟨ostr', all, ?_, hkept, hagree.trans ?_⟩
      · rw [Pieces.write, hdescription, pure_bind, hsays.read]
        exact hwrite
      · rw [hcut, Pieces.fullText, List.append_assoc]
        exact (AgreeUpTo.refl _ written).append
          ((Truncation.agreeUpTo_take le_rfl _).append (AgreeUpTo.refl ..))
  | .str frame allErrors rest, _, _, written, ostr, hpos, hsize, h => by
      obtain ⟨shown, hrun, hshown⟩ := run_spec frame
        (fun memory all hsize hkept => allErrors.write_spec frame.length_stream hsize hkept)
      obtain ⟨ostr', all, hwrite, hkept, hagree⟩ := write_then h hsize hpos shown
        fun ostr' h' => rest.write_spec hpos hsize h'
      refine ⟨ostr', all, ?_, hkept, hagree.trans ?_⟩
      · rw [Pieces.write, hrun, pure_bind]
        exact hwrite
      · rw [Pieces.fullText, List.append_assoc]
        exact (AgreeUpTo.refl _ written).append (hshown.append (AgreeUpTo.refl ..))
  | .error frame cause rest, _, _, written, ostr, hpos, hsize, h => by
      obtain ⟨behind, hcompose⟩ := composeSafe_spec frame cause
      obtain ⟨more, hmore⟩ := exists_cut (cause.text.take (frame.string.length - 1)) behind
      obtain ⟨ostr', all, hwrite, hkept, hagree⟩ := write_then h hsize hpos (cut _)
        fun ostr' h' => rest.write_spec hpos hsize h'
      refine ⟨ostr', all, ?_, hkept, hagree.trans ?_⟩
      · rw [Pieces.write, hcompose, pure_bind, hmore, read_of_noNul (cut_noNul _)]
        exact hwrite
      · have hstring := frame.length_string
        rw [Pieces.fullText, List.append_assoc]
        exact (AgreeUpTo.refl _ written).append
          (((Truncation.agreeUpTo_take (by omega) cause.text).takeWhile _).append
            (AgreeUpTo.refl ..))

end

/-- **The text of an exception.**  However it came about, its `what()` is the beginning of the
whole text, as much of it as an exception has room for. -/
theorem Report.what_spec (exception : Report) :
    ∃ what, exception.what = pure what ∧
      what.text = exception.fullText.take (descBufferSize - 1) := by
  obtain ⟨description, text, hdescription, hsays, hcut⟩ := exception.description_spec
  refine ⟨⟨cut text, cut_noNul text⟩, ?_, hcut⟩
  rw [Report.what, hdescription, pure_bind, hsays.read]
  rfl

/-- What a stream shows that is not thrown has the same beginning as the whole text. -/
theorem Pieces.shown_spec (frame : Frame) (pieces : Pieces) :
    ∃ shown, pieces.shown frame = pure shown ∧
      AgreeUpTo (descBufferSize - 1) shown pieces.fullText :=
  run_spec frame fun _ _ hsize hkept => pieces.write_spec frame.length_stream hsize hkept

/-- The whole text is a C string. -/
theorem Report.fullText_noNul : (exception : Report) → 0 ∉ exception.fullText
  | .thrown _ text => cut_noNul text
  | .errno _ cause => cut_noNul cause.text
  | .composed _ pieces => cut_noNul pieces.fullText
  | .copied _ exception => exception.fullText_noNul

/-- A stream shows something as soon as something was written to it. -/
theorem Pieces.shown_length (frame : Frame) (pieces : Pieces) :
    ∃ shown, pieces.shown frame = pure shown ∧ (shown.length ≠ 0 ↔ pieces.fullText ≠ []) := by
  obtain ⟨shown, hshown, hagree⟩ := pieces.shown_spec frame
  refine ⟨shown, hshown, ?_⟩
  rw [Ne, List.length_eq_zero_iff, hagree.eq_nil_iff (by decide)]

end LiteMQ.Gears
