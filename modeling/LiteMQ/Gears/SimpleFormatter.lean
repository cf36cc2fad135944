import LiteMQ.Foundation.DecimalBytes
import LiteMQ.Foundation.IntegerType
import LiteMQ.Foundation.Memory
import LiteMQ.Gears.Hex
import LiteMQ.Gears.TimeFormat
import Mathlib.Data.Nat.Digits.Lemmas

/-!
# `Simple::Formatter` and `FormatWrapper`

The formatter writes the parts of a log record one behind the other into a buffer whose
free part it keeps as a pointer and an `int`.  It asks for 1024 bytes more than the texts of
the record, and that is always enough: the buffer holds exactly the parts that are asked
for and what lay behind them before (`format_spec`).  Only the `int` can be too small: a
buffer of 2 ^ 31 bytes has a negative size, and the formatter writes through a null pointer.

`FormatWrapper` formats in a buffer of the call, or in one that it keeps for all calls.  Both
give the same C strings (`formatAll_eq`).
-/

namespace LiteMQ.Gears.Simple

open IntegerType (castInt sizeT)

/-! ## The source -/

/-- The bytes of a literal. -/
def ascii (s : String) : List UInt8 := s.toList.map Char.toUInt8

/-- `SEVERITY_LABLES` -/
def severityLables : List (List UInt8) :=
  [ascii "EMERGENCY", ascii "ALERT", ascii "CRITICAL", ascii "ERROR", ascii "WARNING",
    ascii "NOTICE", ascii "INFO", ascii "DEBUG", ascii "TRACE"]

inductive TimeZone
  | gmt
  | local
  deriving DecidableEq

structure LogRecord where
  text : List UInt8
  severity : UInt64
  aspect : List UInt8
  code : List UInt8
  time : Time
  timeZone : TimeZone

/-- What the formatter asks the system for: `localtime_r`, `getpid` and `pthread_self`. -/
structure Environment where
  localTime : Time → ExtendedTime
  pid : UInt32
  thread : UInt64

/-- `Time::get_time` -/
def getTime (env : Environment) (time : Time) : TimeZone → ExtendedTime
  | .gmt => time.getGmTime
  | .local => env.localTime time

/-- `Buffer`: the memory, `buff_ptr_` as a place in it, and `size_`. -/
structure Out where
  mem : List UInt8
  ptr : Nat
  size : Int

namespace Out

/-- The constructor. -/
def ofBuf (buf : List UInt8) (length : Nat) : Except Fault Out :=
  if 1 ≤ length then do
    let mem ← Buffer.store buf 0 0
    .ok ⟨mem, 0, castInt length⟩
  else .ok ⟨buf, 0, castInt length⟩

/-- `get()`, where `none` is the null pointer. -/
def get (o : Out) : Option Nat := if 0 < o.size then some o.ptr else none

/-- `size()` -/
def sizeOf (o : Out) : Nat := sizeT o.size

/-- `advance(length)` -/
def advance (o : Out) (length : Nat) : Out :=
  if 0 < o.size then ⟨o.mem, o.ptr + length, castInt (o.size - length)⟩ else o

/-- `strlen` -/
def strlen : List UInt8 → Except Fault Nat
  | [] => .error .outOfBounds
  | ch :: rest => if ch = 0 then .ok 0 else do
      let length ← strlen rest
      .ok (length + 1)

/-- `advance()` -/
def advanceText (o : Out) : Except Fault Out :=
  if 0 < o.size then do
    let length ← strlen (o.mem.drop o.ptr)
    .ok (o.advance length)
  else .ok (o.advance 0)

/-- `memcpy(get() + i, text, size)` -/
def copy (o : Out) (i : Nat) (text : List UInt8) : Except Fault Out :=
  match o.get with
  | none => .error .nullDereference
  | some p => do
      let mem ← Buffer.storeRange o.mem (p + i) text
      .ok ⟨mem, o.ptr, o.size⟩

/-- `get()[i] = ch` -/
def set (o : Out) (i : Nat) (ch : UInt8) : Except Fault Out := o.copy i [ch]

/-- `snprintf(get(), size(), ...)` of a format that expands to the text. -/
def snprintf (o : Out) (text : List UInt8) : Except Fault Out :=
  if o.sizeOf = 0 then .ok o else o.copy 0 (text.take (o.sizeOf - 1) ++ [0])

/-- `strftime(get(), size(), ...)`.  When the text does not fit nobody knows what the buffer
holds. -/
def strftime (o : Out) (text : List UInt8) : Except Fault Out :=
  if o.sizeOf = 0 then .ok o
  else if text.length < o.sizeOf then o.copy 0 (text ++ [0])
  else match o.get with
    | none => .error .nullDereference
    | some _ => .error .outOfBounds

end Out

/-- A decimal number with leading zeroes, as `%0<width>d` of a number that is not negative. -/
def padded (width n : Nat) : List UInt8 := List.leftpad width 48 (Decimal.decimal n)

/-- `%08lX` -/
def paddedHex (n : Nat) : List UInt8 :=
  List.leftpad 8 48 ((Nat.digits 16 n).map fun d => StringManip.hexUpDigits.getD d 0).reverse

/-- `%a %d %b %Y` in the C locale. -/
def dateText (t : ExtendedTime) : List UInt8 :=
  (daysShort.getD t.wday []).map Char.toUInt8 ++ ascii " " ++ padded 2 t.mday ++
    ascii " " ++ (monthsShort.getD t.mon []).map Char.toUInt8 ++ ascii " " ++
    Decimal.decimal (t.year + 1900)

/-- ` %02d:%02d:%02d:%06d ` -/
def clockText (t : ExtendedTime) : List UInt8 :=
  ascii " " ++ padded 2 t.hour ++ ascii ":" ++ padded 2 t.min ++ ascii ":" ++ padded 2 t.sec ++
    ascii ":" ++ padded 6 t.usec ++ ascii " "

/-- The time of the record. -/
def putTime (t : ExtendedTime) (o : Out) : Except Fault Out := do
  let o ← o.strftime (dateText t)
  let o ← o.advanceText
  let o ← o.snprintf (clockText t)
  .ok (o.advance 17)

/-- A text of the record in brackets. -/
def putField (field : List UInt8) (o : Out) : Except Fault Out := do
  ensure (field.length + 3 ≤ o.sizeOf) .assertionFailed
  let o ← o.set 0 '['.toUInt8
  let o ← o.copy 1 field
  let o ← o.set (1 + field.length) ']'.toUInt8
  let o ← o.set (1 + field.length + 1) ' '.toUInt8
  .ok (o.advance (field.length + 3))

/-- The code of the record. -/
def putCode (record : LogRecord) : Out → Except Fault Out := putField record.code

/-- The aspect of the record. -/
def putAspect (record : LogRecord) : Out → Except Fault Out := putField record.aspect

/-- The label of a severity. -/
def severityLabel (severity : UInt64) : List UInt8 :=
  severityLables.getD (if severity.toNat < 9 then severity.toNat else 9 - 1) []

/-- The severity of the record. -/
def putSeverity (severity : UInt64) (o : Out) : Except Fault Out := do
  let label := severityLabel severity
  ensure (label.length + 4 + 20 ≤ o.sizeOf) .assertionFailed
  let o ← o.set 0 '['.toUInt8
  let o ← o.copy 1 label
  if 9 - 1 ≤ severity.toNat then do
    let o := o.advance (label.length + 1)
    let o ← o.snprintf (ascii " " ++ Decimal.decimal (severity.toNat - (9 - 1)) ++ ascii "] ")
    o.advanceText
  else do
    let o ← o.set (1 + label.length) ']'.toUInt8
    let o ← o.set (1 + label.length + 1) ' '.toUInt8
    .ok (o.advance (label.length + 3))

/-- A number of the system, formatted by `snprintf`. -/
def putNumber (text : List UInt8) (o : Out) : Except Fault Out := do
  let o ← o.snprintf text
  o.advanceText

/-- The process. -/
def putProcess (env : Environment) : Out → Except Fault Out :=
  putNumber (ascii "(" ++ Decimal.decimal env.pid.toNat ++ ascii ") ")

/-- The thread. -/
def putThread (env : Environment) : Out → Except Fault Out :=
  putNumber (ascii "[" ++ paddedHex env.thread.toNat ++ ascii "] ")

/-- What stands between the parts and the text. -/
def putSeparator (o : Out) : Except Fault Out := do
  ensure (2 ≤ o.sizeOf) .assertionFailed
  let o ← o.set 0 ':'.toUInt8
  let o ← o.set 1 ' '.toUInt8
  .ok (o.advance 2)

/-- The text of the record and the end of the line. -/
def putText (record : LogRecord) (o : Out) : Except Fault Out := do
  ensure (record.text.length + 2 ≤ o.sizeOf) .assertionFailed
  let o ← o.copy 0 record.text
  let o := o.advance record.text.length
  let o ← o.set 0 '\n'.toUInt8
  o.set 1 0

/-- `if (flag) { ... }` -/
def putIf (flag : Bool) (put : Out → Except Fault Out) (o : Out) : Except Fault Out :=
  if flag then put o else .ok o

structure Formatter where
  logTime : Bool := true
  logSeverity : Bool := true
  logAspect : Bool := true
  logCode : Bool := true
  logThreadId : Bool := false
  logProcessId : Bool := false

namespace Formatter

/-- `required_size` -/
def requiredSize (record : LogRecord) : Nat :=
  sizeT (record.text.length + record.aspect.length + record.code.length + 1024)

/-- What `format` asks for. -/
def neededSize (f : Formatter) (record : LogRecord) : Nat :=
  sizeT (record.text.length + (if f.logAspect then record.aspect.length else 0) +
    (if f.logCode then record.code.length else 0) + 1024)

/-- There is a separator; the code alone does not ask for one. -/
def separates (f : Formatter) : Bool :=
  f.logTime || f.logSeverity || f.logAspect || f.logThreadId || f.logProcessId

/-- `format(record, buf, size)`: what it returns, and the buffer. -/
def format (f : Formatter) (env : Environment) (record : LogRecord) (buf : List UInt8)
    (size : Nat) : Except Fault (Bool × List UInt8) :=
  if size < f.neededSize record then .ok (false, buf)
  else do
    let o ← Out.ofBuf buf size
    let o ← putIf f.logTime (putTime (getTime env record.time record.timeZone)) o
    let o ← putIf f.logCode (putCode record) o
    let o ← putIf f.logSeverity (putSeverity record.severity) o
    let o ← putIf f.logAspect (putAspect record) o
    let o ← putIf f.logProcessId (putProcess env) o
    let o ← putIf f.logThreadId (putThread env) o
    let o ← putIf f.separates putSeparator o
    let o ← putText record o
    .ok (true, o.mem)

/-- `Gears::Formatter::format(record)`: the array. -/
def formatArray (f : Formatter) (env : Environment) (record : LogRecord) :
    Except Fault (List UInt8) := do
  let size := requiredSize record
  let (result, buffer) ← f.format env record (List.replicate size 0) size
  ensure (result = true) .assertionFailed
  .ok buffer

end Formatter

/-- `FormatWrapper`: the formatter, `ALLOCATED_` and `BUFFER_`. -/
structure FormatWrapper where
  formatter : Formatter
  allocated : Nat
  buffer : List UInt8

namespace FormatWrapper

/-- The constructor. -/
def ofSize (formatter : Option Formatter) (size : Nat) : FormatWrapper :=
  ⟨formatter.getD {}, size, List.replicate size 0⟩

/-- The C string at the beginning of a buffer. -/
def cString (buf : List UInt8) : List UInt8 := buf.takeWhile (· ≠ 0)

/-- `format(record)`: the C string that the caller gets, `none` for the null pointer, and the
wrapper. -/
def format (w : FormatWrapper) (env : Environment) (record : LogRecord) :
    Except Fault (Option (List UInt8) × FormatWrapper) :=
  if w.allocated = 0 then do
    let result ← w.formatter.formatArray env record
    .ok (some (cString result), w)
  else do
    let (result, buffer) ← w.formatter.format env record w.buffer w.allocated
    .ok (if result then some (cString buffer) else none, ⟨w.formatter, w.allocated, buffer⟩)

/-- One call behind the other. -/
def formatAll (w : FormatWrapper) : List (Environment × LogRecord) →
    Except Fault (List (Option (List UInt8)))
  | [] => .ok []
  | (env, record) :: calls => do
      let (result, w) ← w.format env record
      let results ← formatAll w calls
      .ok (result :: results)

end FormatWrapper

/-! ## The buffer between two parts -/

namespace Out

/-- Behind `done` stands `ahead`, and behind that nothing has changed. -/
def written (buf : List UInt8) (room : Nat) (done ahead : List UInt8) : Out :=
  ⟨done ++ ahead ++ buf.drop (done.length + ahead.length), done.length, room - done.length⟩

variable {buf : List UInt8} {room : Nat} {done ahead text : List UInt8} {i n : Nat}

theorem size_written_pos (h : done.length < room) : 0 < (written buf room done ahead).size := by
  simp only [written]
  omega

theorem get_written (h : done.length < room) :
    (written buf room done ahead).get = some done.length := if_pos (size_written_pos h)

theorem sizeOf_written (hroom : room < 2 ^ 31) (h : done.length ≤ room) :
    (written buf room done ahead).sizeOf = room - done.length := by
  simp only [sizeOf, written]
  rw [IntegerType.sizeT_sub h (by omega)]

/-- A text that goes on where the last one ended, or before. -/
theorem copy_written (hbuf : room ≤ buf.length) (hstart : i ≤ ahead.length)
    (hcover : ahead.length ≤ i + text.length) (hpos : done.length < room)
    (h : done.length + i + text.length ≤ room) :
    (written buf room done ahead).copy i text =
      .ok (written buf room done (ahead.take i ++ text)) := by
  have hmem : (done ++ ahead.take i).length = done.length + i := by simp; omega
  have hsplit : done ++ ahead ++ buf.drop (done.length + ahead.length) =
      done ++ ahead.take i ++ (ahead.drop i ++ buf.drop (done.length + ahead.length)) := by
    rw [List.append_assoc, List.append_assoc, ← List.append_assoc (ahead.take i),
      List.take_append_drop]
  have hfits : text.length ≤ (ahead.drop i ++ buf.drop (done.length + ahead.length)).length := by
    simp
    omega
  have hrest : (ahead.drop i ++ buf.drop (done.length + ahead.length)).drop text.length =
      buf.drop (done.length + (ahead.take i ++ text).length) := by
    rw [List.drop_append, List.drop_eq_nil_of_le (by simp; omega), List.nil_append,
      List.drop_drop]
    congr 1
    simp
    omega
  have hstore := Buffer.storeRange_append (done ++ ahead.take i) hfits
  rw [hmem, ← hsplit, hrest] at hstore
  rw [copy, get_written hpos]
  simp only [written, hstore, Fault.ok_bind]
  rw [List.append_assoc done]

theorem set_written {ch : UInt8} (hbuf : room ≤ buf.length)
    (h : done.length + ahead.length < room) :
    (written buf room done ahead).set ahead.length ch =
      .ok (written buf room done (ahead ++ [ch])) := by
  rw [set, copy_written hbuf le_rfl (Nat.le_add_right _ _) (by omega)
    (by rw [List.length_singleton]; omega), List.take_length]

theorem advance_written (hroom : room < 2 ^ 31) (hn : n ≤ ahead.length)
    (h : done.length + n ≤ room) (hpos : done.length < room) :
    (written buf room done ahead).advance n =
      written buf room (done ++ ahead.take n) (ahead.drop n) := by
  have hlen : (done ++ ahead.take n).length = done.length + n := by simp; omega
  have hsum : done.length + n + (ahead.length - n) = done.length + ahead.length := by omega
  have hcast : castInt ((room : Int) - done.length - n) = room - (done.length + n : Nat) := by
    rw [IntegerType.castInt_of_lt (by omega) (by omega)]
    omega
  rw [advance, if_pos (size_written_pos hpos)]
  simp only [written, hlen, hcast, List.length_drop, hsum]
  rw [List.append_assoc done (ahead.take n), List.take_append_drop]

theorem snprintf_written (hbuf : room ≤ buf.length) (hroom : room < 2 ^ 31)
    (hahead : ahead.length ≤ 1) (h : done.length + text.length < room) :
    (written buf room done ahead).snprintf text =
      .ok (written buf room done (text ++ [0])) := by
  have hsize : (written buf room done ahead).sizeOf = room - done.length :=
    sizeOf_written hroom (by omega)
  rw [snprintf, hsize, if_neg (by omega), List.take_of_length_le (by omega),
    copy_written hbuf (Nat.zero_le _) (by simp; omega) (by omega) (by simp; omega),
    List.take_zero, List.nil_append]

theorem strlen_eq (htext : 0 ∉ text) (rest : List UInt8) :
    strlen (text ++ 0 :: rest) = .ok text.length := by
  induction text with
  | nil => rfl
  | cons ch text ih =>
      obtain ⟨hch, htext⟩ := List.ne_and_not_mem_of_not_mem_cons htext
      rw [List.cons_append, strlen, if_neg (Ne.symm hch), ih htext]
      rfl

theorem advanceText_written (hroom : room < 2 ^ 31) (htext : 0 ∉ text)
    (h : done.length + text.length < room) :
    (written buf room done (text ++ [0])).advanceText =
      .ok (written buf room (done ++ text) [0]) := by
  have hmem : (written buf room done (text ++ [0])).mem.drop done.length =
      text ++ 0 :: buf.drop (done.length + (text ++ [0]).length) := by
    simp only [written, List.append_assoc, List.drop_left, List.singleton_append]
  have hptr : (written buf room done (text ++ [0])).ptr = done.length := rfl
  rw [advanceText, if_pos (size_written_pos (by omega)), hptr, hmem, strlen_eq htext,
    Fault.ok_bind, advance_written hroom (by simp) (by omega) (by omega), List.take_left,
    List.drop_left]

/-- The place behind the last part, whose byte may have changed. -/
def At (buf : List UInt8) (room : Nat) (done : List UInt8) (o : Out) : Prop :=
  ∃ next, o = written buf room done [next]

theorem at_nil (h : done.length < buf.length) : At buf room done (written buf room done []) := by
  refine ⟨buf[done.length], ?_⟩
  simp [written, List.getElem_cons_drop]

end Out

/-! ## The texts -/

theorem length_padded {width n : Nat} (hwidth : 0 < width) (hn : n < 10 ^ width) :
    (padded width n).length = width := by
  obtain ⟨k, rfl⟩ := Nat.exists_eq_succ_of_ne_zero (Nat.pos_iff_ne_zero.mp hwidth)
  rw [padded, List.length_leftpad]
  exact Nat.max_eq_left (Decimal.length_decimal_le hn)

theorem zero_notMem_decimal (n : Nat) : 0 ∉ Decimal.decimal n := fun h =>
  absurd ((Decimal.decimal_isDigits n).isDigit 0 h) (by decide)

theorem zero_notMem_leftpad {text : List UInt8} (htext : 0 ∉ text) (width : Nat) :
    0 ∉ List.leftpad width 48 text := by
  intro h
  rw [List.leftpad, List.mem_append] at h
  rcases h with h | h
  · exact absurd (List.eq_of_mem_replicate h) (by decide)
  · exact htext h

theorem hexUpDigits_ne_zero : ∀ d < 16, StringManip.hexUpDigits.getD d 0 ≠ 0 := by decide

theorem zero_notMem_paddedHex (n : Nat) : 0 ∉ paddedHex n := by
  refine zero_notMem_leftpad (fun h => ?_) 8
  rw [List.mem_reverse, List.mem_map] at h
  obtain ⟨d, hd, hzero⟩ := h
  exact hexUpDigits_ne_zero d (Nat.digits_lt_base (by decide) hd) hzero

theorem length_paddedHex_le {n : Nat} (hn : n < 2 ^ 64) : (paddedHex n).length ≤ 16 := by
  have hdigits : (Nat.digits 16 n).length ≤ 16 :=
    (Nat.digits_length_le_iff (by decide) n).mpr (by omega)
  rw [paddedHex, List.length_leftpad, List.length_reverse, List.length_map]
  omega

/-- A name of a table as `strftime` writes it. -/
theorem nameBytes : (∀ i < 7, ((daysShort.getD i []).map Char.toUInt8).length = 3 ∧
      0 ∉ (daysShort.getD i []).map Char.toUInt8) ∧
    ∀ i < 12, ((monthsShort.getD i []).map Char.toUInt8).length = 3 ∧
      0 ∉ (monthsShort.getD i []).map Char.toUInt8 := by
  decide +kernel

/-- A split time that `struct tm` can hold. -/
structure Standard (t : ExtendedTime) : Prop extends t.InRange where
  usec : t.usec < 1000000
  int_year : t.year < 2 ^ 31

section

variable {t : ExtendedTime}

theorem length_dateText_le (ht : Standard t) : (dateText t).length ≤ 21 := by
  have hyear : (Decimal.decimal (t.year + 1900)).length ≤ 10 :=
    Decimal.length_decimal_le (by have := ht.int_year; omega)
  have hmday : (padded 2 t.mday).length = 2 :=
    length_padded (by decide) (by have := ht.mday; omega)
  simp only [dateText, List.length_append, (nameBytes.1 t.wday ht.wday).1,
    (nameBytes.2 t.mon ht.mon).1, hmday, show (ascii " ").length = 1 from rfl]
  omega

theorem zero_notMem_dateText (ht : Standard t) : 0 ∉ dateText t := by
  simp only [dateText, List.mem_append, not_or]
  have hblank : 0 ∉ ascii " " := by decide
  exact ⟨⟨⟨⟨⟨⟨(nameBytes.1 t.wday ht.wday).2, hblank⟩,
    zero_notMem_leftpad (zero_notMem_decimal _) 2⟩, hblank⟩, (nameBytes.2 t.mon ht.mon).2⟩,
    hblank⟩, zero_notMem_decimal _⟩

/-- What `advance(17)` passes over. -/
theorem length_clockText (ht : Standard t) : (clockText t).length = 17 := by
  have hhour : (padded 2 t.hour).length = 2 :=
    length_padded (by decide) (by have := ht.hour; omega)
  have hmin : (padded 2 t.min).length = 2 := length_padded (by decide) (by have := ht.min; omega)
  have hsec : (padded 2 t.sec).length = 2 := length_padded (by decide) (by have := ht.sec; omega)
  have husec : (padded 6 t.usec).length = 6 :=
    length_padded (by decide) (by have := ht.usec; omega)
  simp only [clockText, List.length_append, hhour, hmin, hsec, husec,
    show (ascii " ").length = 1 from rfl, show (ascii ":").length = 1 from rfl]

end

theorem length_severityLabel_le (severity : UInt64) : (severityLabel severity).length ≤ 9 := by
  have hlables : ∀ i < 9, (severityLables.getD i []).length ≤ 9 := by decide
  refine hlables _ ?_
  split
  · assumption
  · decide

/-- A text in brackets. -/
def bracketed (field : List UInt8) : List UInt8 := '['.toUInt8 :: field ++ ascii "] "

theorem length_bracketed (field : List UInt8) : (bracketed field).length = field.length + 3 := by
  simp [bracketed, ascii]

/-- The severities from `TRACE` on have a number of their own. -/
def severityText (severity : UInt64) : List UInt8 :=
  if 9 - 1 ≤ severity.toNat then
    '['.toUInt8 :: severityLabel severity ++
      (ascii " " ++ Decimal.decimal (severity.toNat - (9 - 1)) ++ ascii "] ")
  else bracketed (severityLabel severity)

def processText (env : Environment) : List UInt8 :=
  ascii "(" ++ Decimal.decimal env.pid.toNat ++ ascii ") "

def threadText (env : Environment) : List UInt8 :=
  ascii "[" ++ paddedHex env.thread.toNat ++ ascii "] "

/-- The line of a record. -/
def Formatter.line (f : Formatter) (env : Environment) (record : LogRecord) : List UInt8 :=
  let t := getTime env record.time record.timeZone
  (if f.logTime then dateText t ++ clockText t else []) ++
    (if f.logCode then bracketed record.code else []) ++
    (if f.logSeverity then severityText record.severity else []) ++
    (if f.logAspect then bracketed record.aspect else []) ++
    (if f.logProcessId then processText env else []) ++
    (if f.logThreadId then threadText env else []) ++
    (if f.separates then ascii ": " else []) ++ record.text ++ ascii "\n"

/-! ## What each part writes -/

section

variable {buf : List UInt8} {room : Nat}

/-- The part writes its text when there is so much room. -/
def Writes (buf : List UInt8) (room : Nat) (put : Out → Except Fault Out) (text : List UInt8)
    (need : Nat) : Prop :=
  ∀ done o, Out.At buf room done o → done.length + need ≤ room →
    ∃ o', put o = .ok o' ∧ Out.At buf room (done ++ text) o'

theorem putTime_writes (hbuf : room ≤ buf.length) (hroom : room < 2 ^ 31) {t : ExtendedTime}
    (ht : Standard t) : Writes buf room (putTime t) (dateText t ++ clockText t) 40 := by
  rintro done o ⟨next, rfl⟩ hneed
  have hdate := length_dateText_le ht
  have hclock := length_clockText ht
  have hsize : (Out.written buf room done [next]).sizeOf = room - done.length :=
    Out.sizeOf_written hroom (by omega)
  have hstrftime : (Out.written buf room done [next]).strftime (dateText t) =
      .ok (Out.written buf room done (dateText t ++ [0])) := by
    rw [Out.strftime, hsize, if_neg (by omega), if_pos (by omega),
      Out.copy_written hbuf (Nat.zero_le _) (by simp) (by omega) (by simp; omega),
      List.take_zero, List.nil_append]
  have hlen : (done ++ dateText t).length = done.length + (dateText t).length :=
    List.length_append
  refine ⟨Out.written buf room (done ++ (dateText t ++ clockText t)) [0], ?_, 0, rfl⟩
  rw [putTime, hstrftime, Fault.ok_bind,
    Out.advanceText_written hroom (zero_notMem_dateText ht) (by omega), Fault.ok_bind,
    Out.snprintf_written hbuf hroom (by simp) (by omega), Fault.ok_bind,
    Out.advance_written hroom (by simp; omega) (by omega) (by omega), ← hclock, List.take_left,
    List.drop_left, List.append_assoc]

/-- The opening bracket and what stands in the brackets. -/
theorem open_written (hbuf : room ≤ buf.length) {done field : List UInt8} (next : UInt8)
    (h : done.length + field.length + 1 ≤ room) :
    ((Out.written buf room done [next]).set 0 '['.toUInt8 >>= fun o => o.copy 1 field) =
      .ok (Out.written buf room done ('['.toUInt8 :: field)) := by
  rw [Out.set, Out.copy_written hbuf (Nat.zero_le _) (by simp) (by omega) (by simp; omega),
    Fault.ok_bind, Out.copy_written hbuf (by simp) (by simp) (by omega) (by omega)]
  rfl

theorem close_written (hbuf : room ≤ buf.length) (hroom : room < 2 ^ 31)
    {done field : List UInt8} (h : done.length + field.length + 4 ≤ room) :
    (do
      let o ← (Out.written buf room done ('['.toUInt8 :: field)).set (1 + field.length)
        ']'.toUInt8
      let o ← o.set (1 + field.length + 1) ' '.toUInt8
      .ok (o.advance (field.length + 3))) =
      .ok (Out.written buf room (done ++ bracketed field) []) := by
  have hfield : 1 + field.length = ('['.toUInt8 :: field).length := by simp; omega
  have hclosed : 1 + field.length + 1 = ('['.toUInt8 :: field ++ [']'.toUInt8]).length := by
    simp
    omega
  have hall : '['.toUInt8 :: field ++ [']'.toUInt8] ++ [' '.toUInt8] = bracketed field := by
    simp [bracketed, ascii]
  have hlen := length_bracketed field
  rw [hclosed, hfield, Out.set_written hbuf (by simp; omega), Fault.ok_bind,
    Out.set_written hbuf (by simp; omega), Fault.ok_bind, hall,
    Out.advance_written hroom (by omega) (by omega) (by omega), ← hlen, List.take_length,
    List.drop_length]

theorem putField_writes (hbuf : room ≤ buf.length) (hroom : room < 2 ^ 31) (field : List UInt8) :
    Writes buf room (putField field) (bracketed field) (field.length + 4) := by
  rintro done o ⟨next, rfl⟩ hneed
  have hsize : (Out.written buf room done [next]).sizeOf = room - done.length :=
    Out.sizeOf_written hroom (by omega)
  have hopen := open_written hbuf next
    (by omega : done.length + field.length + 1 ≤ room)
  have hclose := close_written hbuf hroom (by omega : done.length + field.length + 4 ≤ room)
  refine ⟨_, ?_, Out.at_nil ?_⟩
  · rw [putField, ensure_of_true _ (by omega), Fault.ok_bind, ← bind_assoc, hopen, Fault.ok_bind,
      hclose]
  · rw [List.length_append, length_bracketed]
    omega

theorem putSeverity_writes (hbuf : room ≤ buf.length) (hroom : room < 2 ^ 31)
    (severity : UInt64) : Writes buf room (putSeverity severity) (severityText severity) 34 := by
  rintro done o ⟨next, rfl⟩ hneed
  have hlabel := length_severityLabel_le severity
  have hsize : (Out.written buf room done [next]).sizeOf = room - done.length :=
    Out.sizeOf_written hroom (by omega)
  have hopen := open_written hbuf next
    (by omega : done.length + (severityLabel severity).length + 1 ≤ room)
  unfold putSeverity severityText
  dsimp only
  rw [ensure_of_true _ (by omega), Fault.ok_bind, ← bind_assoc, hopen, Fault.ok_bind]
  split
  · -- the number goes to where the label ends
    rename_i hhigh
    have hnumber : (Decimal.decimal (severity.toNat - (9 - 1))).length ≤ 20 :=
      Decimal.length_decimal_le (by have := severity.toNat_lt; omega)
    have hnul : 0 ∉ ascii " " ++ Decimal.decimal (severity.toNat - (9 - 1)) ++ ascii "] " := by
      simp only [List.mem_append, not_or]
      exact ⟨⟨by decide, zero_notMem_decimal _⟩, by decide⟩
    have htext : (ascii " " ++ Decimal.decimal (severity.toNat - (9 - 1)) ++
        ascii "] ").length ≤ 23 := by
      simp only [List.length_append, show (ascii " ").length = 1 from rfl,
        show (ascii "] ").length = 2 from rfl]
      omega
    have hlen : (done ++ '['.toUInt8 :: severityLabel severity).length =
        done.length + (severityLabel severity).length + 1 := by
      simp
      omega
    have hfull : ((severityLabel severity).length + 1) =
        ('['.toUInt8 :: severityLabel severity).length := rfl
    refine ⟨_, ?_, 0, rfl⟩
    simp only [hfull]
    rw [Out.advance_written hroom le_rfl (by simp; omega) (by omega), List.take_length,
      List.drop_length, Out.snprintf_written hbuf hroom (by simp) (by omega),
      Fault.ok_bind, Out.advanceText_written hroom hnul (by omega)]
    rw [List.append_assoc done]
  · refine ⟨_, close_written hbuf hroom (by omega), Out.at_nil ?_⟩
    rw [List.length_append, length_bracketed]
    omega

theorem putNumber_writes (hbuf : room ≤ buf.length) (hroom : room < 2 ^ 31) {text : List UInt8}
    (htext : 0 ∉ text) : Writes buf room (putNumber text) text (text.length + 1) := by
  rintro done o ⟨next, rfl⟩ hneed
  refine ⟨_, ?_, 0, rfl⟩
  rw [putNumber, Out.snprintf_written hbuf hroom (by simp) (by omega), Fault.ok_bind,
    Out.advanceText_written hroom htext (by omega)]

theorem putSeparator_writes (hbuf : room ≤ buf.length) (hroom : room < 2 ^ 31) :
    Writes buf room putSeparator (ascii ": ") 3 := by
  rintro done o ⟨next, rfl⟩ hneed
  have hsize : (Out.written buf room done [next]).sizeOf = room - done.length :=
    Out.sizeOf_written hroom (by omega)
  have hblank : (Out.written buf room done [':'.toUInt8]).set 1 ' '.toUInt8 =
      .ok (Out.written buf room done (ascii ": ")) :=
    Out.set_written hbuf (by rw [List.length_singleton]; omega)
  refine ⟨_, ?_, Out.at_nil ?_⟩
  · rw [putSeparator, ensure_of_true _ (by omega), Fault.ok_bind, Out.set,
      Out.copy_written hbuf (Nat.zero_le _) (by simp) (by omega) (by simp; omega), Fault.ok_bind]
    exact (congrArg (· >>= _) hblank).trans (congrArg Except.ok
      (Out.advance_written hroom le_rfl (by omega) (by omega)))
  · rw [List.length_append]
    exact (by omega : done.length + 2 < buf.length)

/-- The text behind the parts. -/
theorem text_written (hbuf : room ≤ buf.length) (hroom : room < 2 ^ 31) {done text : List UInt8}
    (next : UInt8) (h : done.length + text.length < room) :
    ∃ o ahead, (Out.written buf room done [next]).copy 0 text = .ok o ∧ ahead.length ≤ 1 ∧
      o.advance text.length = Out.written buf room (done ++ text) ahead := by
  cases text with
  | nil =>
      refine ⟨Out.written buf room done [next], [next], ?_, le_rfl, ?_⟩
      · have hstore : Buffer.storeRange (Out.written buf room done [next]).mem done.length [] =
            .ok (Out.written buf room done [next]).mem := by
          rw [Buffer.storeRange_eq_ok (by simp [Out.written]), List.append_nil, List.length_nil,
            Nat.add_zero, List.take_append_drop]
        rw [Out.copy, Out.get_written (Nat.lt_of_le_of_lt (Nat.le_add_right _ _) h)]
        simp only [Nat.add_zero, hstore, Fault.ok_bind]
      · rw [List.length_nil, Nat.add_zero] at h
        rw [List.length_nil, Out.advance_written hroom (Nat.zero_le _) (by omega) h]
        rfl
  | cons ch text =>
      refine ⟨_, [], Out.copy_written hbuf (Nat.zero_le _) (by simp) (by omega) (by omega),
        Nat.zero_le _, ?_⟩
      rw [List.take_zero, List.nil_append,
        Out.advance_written hroom le_rfl (by omega) (by omega), List.take_length,
        List.drop_length]

theorem putText_written (hbuf : room ≤ buf.length) (hroom : room < 2 ^ 31) {record : LogRecord}
    {done : List UInt8} {o : Out} (ho : Out.At buf room done o)
    (h : done.length + record.text.length + 2 ≤ room) :
    putText record o =
      .ok (Out.written buf room (done ++ record.text) (ascii "\n" ++ [0])) := by
  obtain ⟨next, rfl⟩ := ho
  have hsize : (Out.written buf room done [next]).sizeOf = room - done.length :=
    Out.sizeOf_written hroom (by omega)
  obtain ⟨o, ahead, hcopy, hahead, hadvance⟩ := text_written hbuf hroom next
    (by omega : done.length + record.text.length < room)
  have hlen : (done ++ record.text).length = done.length + record.text.length :=
    List.length_append
  have hnul : (Out.written buf room (done ++ record.text) (ascii "\n")).set 1 0 =
      .ok (Out.written buf room (done ++ record.text) (ascii "\n" ++ [0])) :=
    Out.set_written hbuf
      (by rw [hlen]; exact (by omega : done.length + record.text.length + 1 < room))
  rw [putText, ensure_of_true _ (by omega), Fault.ok_bind, hcopy, Fault.ok_bind]
  dsimp only
  rw [hadvance, Out.set, Out.copy_written hbuf (Nat.zero_le _) (by simpa using hahead) (by omega)
    (by rw [hlen, List.length_singleton]; omega), Fault.ok_bind]
  exact hnul

/-- What comes behind a part starts where it ended. -/
theorem Writes.bind {put : Out → Except Fault Out} {text : List UInt8} {need : Nat} {α : Type}
    {rest : Out → Except Fault α} {result : Except Fault α} (h : Writes buf room put text need)
    {done : List UInt8} {o : Out} (ho : Out.At buf room done o)
    (hneed : done.length + need ≤ room)
    (hrest : ∀ o', Out.At buf room (done ++ text) o' → rest o' = result) :
    (put o >>= rest) = result := by
  obtain ⟨o', hput, ho'⟩ := h done o ho hneed
  rw [hput, Fault.ok_bind, hrest o' ho']

/-- A part that may be left out. -/
theorem Writes.putIf {put : Out → Except Fault Out} {text : List UInt8} {need : Nat}
    (h : Writes buf room put text need) (flag : Bool) :
    Writes buf room (Simple.putIf flag put) (if flag then text else []) need := by
  rintro done o ho hneed
  cases flag with
  | true => exact h done o ho hneed
  | false => exact ⟨o, rfl, by simpa using ho⟩

theorem putIf_field_writes (hbuf : room ≤ buf.length) (hroom : room < 2 ^ 31) (flag : Bool)
    (field : List UInt8) :
    Writes buf room (putIf flag (putField field)) (if flag then bracketed field else [])
      ((if flag then field.length else 0) + 4) := by
  rintro done o ho hneed
  cases flag with
  | true => exact putField_writes hbuf hroom field done o ho hneed
  | false => exact ⟨o, rfl, by simpa using ho⟩

end

/-! ## The line of a record -/

/-- The texts of the record lie in memory, and its time is one that `struct tm` can hold. -/
structure Proper (env : Environment) (record : LogRecord) : Prop where
  fits : record.text.length + record.aspect.length + record.code.length + 1024 < 2 ^ 63
  local_inRange : ∀ time, (env.localTime time).InRange
  local_usec : ∀ time, (env.localTime time).usec = time.tvUsec
  usec : record.time.tvUsec < 1000000
  int_year : (getTime env record.time record.timeZone).year < 2 ^ 31

section

variable {f : Formatter} {env : Environment} {record : LogRecord} {buf : List UInt8} {size : Nat}

theorem Proper.standard (h : Proper env record) :
    Standard (getTime env record.time record.timeZone) where
  toInRange := by
    cases record.timeZone with
    | gmt =>
        obtain ⟨hsec, hmin, hhour, hmday_pos, hmday, hmon, hyear, hwday⟩ :=
          timeToGm_inRange record.time.tvSec
        exact ⟨hsec, hmin, hhour, hmday_pos, hmday, hmon, hyear, hwday⟩
    | «local» => exact h.local_inRange record.time
  usec := by
    cases record.timeZone with
    | gmt => exact h.usec
    | «local» => exact (h.local_usec record.time).trans_lt h.usec
  int_year := h.int_year

theorem Proper.neededSize (h : Proper env record) (f : Formatter) :
    f.neededSize record = record.text.length + (if f.logAspect then record.aspect.length else 0) +
      (if f.logCode then record.code.length else 0) + 1024 := by
  have hfits := h.fits
  have haspect : (if f.logAspect then record.aspect.length else 0) ≤ record.aspect.length := by
    split <;> omega
  have hcode : (if f.logCode then record.code.length else 0) ≤ record.code.length := by
    split <;> omega
  unfold Formatter.neededSize
  exact_mod_cast IntegerType.sizeT_of_nat (n := record.text.length +
    (if f.logAspect then record.aspect.length else 0) +
    (if f.logCode then record.code.length else 0) + 1024) (by omega)

theorem length_if_le {flag : Bool} {text : List UInt8} {n : Nat} (h : text.length ≤ n) :
    (if flag then text else []).length ≤ n := by
  split
  · exact h
  · exact Nat.zero_le n

theorem length_field_le (flag : Bool) (field : List UInt8) :
    (if flag then bracketed field else []).length ≤ (if flag then field.length else 0) + 3 := by
  cases flag with
  | true => exact (length_bracketed field).le
  | false => exact Nat.zero_le _

theorem length_severityText_le (severity : UInt64) : (severityText severity).length ≤ 33 := by
  have hlabel := length_severityLabel_le severity
  unfold severityText
  split
  · have hnumber : (Decimal.decimal (severity.toNat - (9 - 1))).length ≤ 20 :=
      Decimal.length_decimal_le (by have := severity.toNat_lt; omega)
    simp only [List.length_append, List.length_cons, show (ascii " ").length = 1 from rfl,
      show (ascii "] ").length = 2 from rfl]
    omega
  · rw [length_bracketed]
    omega

theorem length_processText_le (env : Environment) : (processText env).length ≤ 13 := by
  have hnumber : (Decimal.decimal env.pid.toNat).length ≤ 10 :=
    Decimal.length_decimal_le (by have := env.pid.toNat_lt; omega)
  simp only [processText, List.length_append, show (ascii "(").length = 1 from rfl,
    show (ascii ") ").length = 2 from rfl]
  omega

theorem length_threadText_le (env : Environment) : (threadText env).length ≤ 19 := by
  have hnumber := length_paddedHex_le env.thread.toNat_lt
  simp only [threadText, List.length_append, show (ascii "[").length = 1 from rfl,
    show (ascii "] ").length = 2 from rfl]
  omega

theorem zero_notMem_processText (env : Environment) : 0 ∉ processText env := by
  simp only [processText, List.mem_append, not_or]
  exact ⟨⟨by decide, zero_notMem_decimal _⟩, by decide⟩

theorem zero_notMem_threadText (env : Environment) : 0 ∉ threadText env := by
  simp only [threadText, List.mem_append, not_or]
  exact ⟨⟨by decide, zero_notMem_paddedHex _⟩, by decide⟩

/-- A new buffer. -/
theorem ofBuf_written (hbuf : size ≤ buf.length) (hpos : 1 ≤ size) {room : Nat}
    (hroom : (room : Int) = castInt size) :
    Out.ofBuf buf size = .ok (Out.written buf room [] [0]) := by
  obtain ⟨x, rest, rfl⟩ := List.exists_cons_of_length_pos (by omega : 0 < buf.length)
  rw [Out.ofBuf, if_pos hpos, Buffer.store_eq_ok (by simp), Fault.ok_bind]
  simp [Out.written, hroom]

/-- How long the parts in front of the text can get. -/
structure PartBounds (f : Formatter) (env : Environment) (record : LogRecord) : Prop where
  time : (if f.logTime then dateText (getTime env record.time record.timeZone) ++
    clockText (getTime env record.time record.timeZone) else []).length ≤ 38
  code : (if f.logCode then bracketed record.code else []).length ≤
    (if f.logCode then record.code.length else 0) + 3
  severity : (if f.logSeverity then severityText record.severity else []).length ≤ 33
  aspect : (if f.logAspect then bracketed record.aspect else []).length ≤
    (if f.logAspect then record.aspect.length else 0) + 3
  process : (if f.logProcessId then processText env else []).length ≤ 13
  thread : (if f.logThreadId then threadText env else []).length ≤ 19
  separator : (if f.separates then ascii ": " else []).length ≤ 2

theorem Proper.bounds (h : Proper env record) (f : Formatter) : PartBounds f env record where
  time := by
    have hdate := length_dateText_le h.standard
    have hclock := length_clockText h.standard
    exact length_if_le (by rw [List.length_append]; omega)
  code := length_field_le f.logCode record.code
  severity := length_if_le (length_severityText_le record.severity)
  aspect := length_field_le f.logAspect record.aspect
  process := length_if_le (length_processText_le env)
  thread := length_if_le (length_threadText_le env)
  separator := length_if_le le_rfl

theorem length_line_lt (hproper : Proper env record) (f : Formatter) :
    (f.line env record).length < f.neededSize record := by
  obtain ⟨htime, hcode, hseverity, haspect, hprocess, hthread, hseparator⟩ := hproper.bounds f
  rw [hproper.neededSize f]
  simp only [Formatter.line, List.length_append, show (ascii "\n").length = 1 from rfl] at *
  omega

/-- The room that `required_size` asks for is enough. -/
theorem format_eq (hproper : Proper env record) (hbuf : size ≤ buf.length)
    (hneed : f.neededSize record ≤ castInt size) :
    f.format env record buf size =
      .ok (true, f.line env record ++ 0 :: buf.drop ((f.line env record).length + 1)) := by
  obtain ⟨room, hroom⟩ : ∃ room : Nat, (room : Int) = castInt size :=
    ⟨(castInt size).toNat, Int.toNat_of_nonneg (by omega)⟩
  have hcast : castInt size ≤ size := IntegerType.castInt_le (by omega)
  have hint : room < 2 ^ 31 := by
    unfold castInt at hroom
    omega
  have hle : room ≤ buf.length := by omega
  have hneeded := hproper.neededSize f
  obtain ⟨htime, hcode, hseverity, haspect, hprocess, hthread, hseparator⟩ := hproper.bounds f
  have hprocessNeed := length_processText_le env
  have hthreadNeed := length_threadText_le env
  unfold Formatter.format
  rw [if_neg (by omega), ofBuf_written hbuf (by omega) hroom, Fault.ok_bind]
  refine ((putTime_writes hle hint hproper.standard).putIf f.logTime).bind ⟨0, rfl⟩
    (by simp only [List.length_nil]; omega) fun o ho => ?_
  refine (putIf_field_writes hle hint f.logCode record.code).bind ho
    (by simp only [List.length_append, List.length_nil]; omega) fun o ho => ?_
  refine ((putSeverity_writes hle hint record.severity).putIf f.logSeverity).bind ho
    (by simp only [List.length_append, List.length_nil]; omega) fun o ho => ?_
  refine (putIf_field_writes hle hint f.logAspect record.aspect).bind ho
    (by simp only [List.length_append, List.length_nil]; omega) fun o ho => ?_
  refine ((putNumber_writes hle hint (zero_notMem_processText env)).putIf f.logProcessId).bind ho
    (by simp only [List.length_append, List.length_nil]; omega) fun o ho => ?_
  refine ((putNumber_writes hle hint (zero_notMem_threadText env)).putIf f.logThreadId).bind ho
    (by simp only [List.length_append, List.length_nil]; omega) fun o ho => ?_
  refine ((putSeparator_writes hle hint).putIf f.separates).bind ho
    (by simp only [List.length_append, List.length_nil]; omega) fun o ho => ?_
  rw [putText_written hle hint ho
    (by simp only [List.length_append, List.length_nil]; omega), Fault.ok_bind]
  simp only [Out.written, Formatter.line, List.nil_append, List.append_assoc,
    List.length_append]
  rfl

/-! A buffer whose size is negative as an `int`. -/

/-- `size_` is negative. -/
def Out.Negative (o : Out) : Prop := -2 ^ 31 ≤ o.size ∧ o.size < 0

variable {o : Out}

theorem Out.Negative.copy (h : o.Negative) (i : Nat) (text : List UInt8) :
    o.copy i text = .error .nullDereference := by
  have hget : o.get = none := if_neg (not_lt.mpr h.2.le)
  rw [Out.copy, hget]

theorem Out.Negative.le_sizeOf (h : o.Negative) : 2 ^ 64 - 2 ^ 31 ≤ o.sizeOf := by
  obtain ⟨hlow, hneg⟩ := h
  unfold Out.sizeOf sizeT
  omega

theorem Out.Negative.putTime (h : o.Negative) (t : ExtendedTime) :
    Simple.putTime t o = .error .nullDereference := by
  have hsize := h.le_sizeOf
  have hget : o.get = none := if_neg (not_lt.mpr h.2.le)
  rw [Simple.putTime, Out.strftime, if_neg (by omega)]
  split
  · rw [h.copy, Fault.error_bind]
  · rw [hget, Fault.error_bind]

theorem Out.Negative.putField (h : o.Negative) {field : List UInt8}
    (hfield : field.length < 2 ^ 63) :
    Simple.putField field o = .error .nullDereference := by
  have hsize := h.le_sizeOf
  rw [Simple.putField, ensure_of_true _ (by omega), Fault.ok_bind, Out.set, h.copy,
    Fault.error_bind]

theorem Out.Negative.putSeverity (h : o.Negative) (severity : UInt64) :
    Simple.putSeverity severity o = .error .nullDereference := by
  have hsize := h.le_sizeOf
  have hlabel := length_severityLabel_le severity
  unfold Simple.putSeverity
  dsimp only
  rw [ensure_of_true _ (by omega), Fault.ok_bind, Out.set, h.copy, Fault.error_bind]

theorem Out.Negative.putNumber (h : o.Negative) (text : List UInt8) :
    Simple.putNumber text o = .error .nullDereference := by
  have hsize := h.le_sizeOf
  rw [Simple.putNumber, Out.snprintf, if_neg (by omega), h.copy, Fault.error_bind]

theorem Out.Negative.putSeparator (h : o.Negative) :
    Simple.putSeparator o = .error .nullDereference := by
  have hsize := h.le_sizeOf
  rw [Simple.putSeparator, ensure_of_true _ (by omega), Fault.ok_bind, Out.set, h.copy,
    Fault.error_bind]

theorem Out.Negative.putText (h : o.Negative) (htext : record.text.length < 2 ^ 63) :
    Simple.putText record o = .error .nullDereference := by
  have hsize := h.le_sizeOf
  rw [Simple.putText, ensure_of_true _ (by omega), Fault.ok_bind, h.copy, Fault.error_bind]

/-- Whichever part comes first fails. -/
theorem putIf_error {flag : Bool} {put : Out → Except Fault Out} {fault : Fault} {α : Type}
    {rest : Out → Except Fault α} (hput : put o = .error fault) (hrest : rest o = .error fault) :
    (putIf flag put o >>= rest) = .error fault := by
  cases flag with
  | true => rw [putIf, if_pos rfl, hput, Fault.error_bind]
  | false => exact hrest

/-- **The formatter and its buffer.**  When the buffer is smaller than what is needed nothing
is done.  Otherwise the line and a NUL are in it, with nothing changed behind them.  A
buffer whose size is negative as an `int` is written through a null pointer. -/
theorem format_spec (f : Formatter) (hproper : Proper env record) (hbuf : size ≤ buf.length) :
    (size < f.neededSize record → f.format env record buf size = .ok (false, buf)) ∧
      (f.neededSize record ≤ castInt size → f.format env record buf size =
        .ok (true, f.line env record ++ 0 :: buf.drop ((f.line env record).length + 1))) ∧
      (f.neededSize record ≤ size → castInt size < 0 →
        f.format env record buf size = .error .nullDereference) := by
  refine ⟨fun hsmall => if_pos hsmall, format_eq hproper hbuf, fun hneed hnegative => ?_⟩
  have hfits := hproper.fits
  have hneeded := hproper.neededSize f
  obtain ⟨x, rest, rfl⟩ := List.exists_cons_of_length_pos (by omega : 0 < buf.length)
  have ho : (⟨(x :: rest).set 0 0, 0, castInt size⟩ : Out).Negative :=
    ⟨IntegerType.castInt_ge _, hnegative⟩
  rw [Formatter.format, if_neg (by omega), Out.ofBuf, if_pos (by omega),
    Buffer.store_eq_ok (by simp), Fault.ok_bind, Fault.ok_bind]
  refine putIf_error (ho.putTime _) (putIf_error (ho.putField (by omega)) ?_)
  refine putIf_error (ho.putSeverity _) (putIf_error (ho.putField (by omega)) ?_)
  refine putIf_error (ho.putNumber _) (putIf_error (ho.putNumber _) ?_)
  refine putIf_error ho.putSeparator ?_
  rw [ho.putText (by omega), Fault.error_bind]

end

/-- The first second after the epoch, with the default parts. -/
def started : LogRecord := ⟨ascii "started", 6, ascii "Server", [], ⟨1, 5⟩, .gmt⟩

def epochEnvironment : Environment := ⟨Time.getGmTime, 1, 2⟩

theorem proper_started : Proper epochEnvironment started where
  fits := by decide
  local_inRange time := by
    obtain ⟨hsec, hmin, hhour, hmday_pos, hmday, hmon, hyear, hwday⟩ :=
      timeToGm_inRange time.tvSec
    exact ⟨hsec, hmin, hhour, hmday_pos, hmday, hmon, hyear, hwday⟩
  local_usec _ := rfl
  usec := by decide
  int_year := by decide +kernel

theorem format_spec_started : ∃ buf,
    ({} : Formatter).format epochEnvironment started (List.replicate 2000 0) 2000 =
      .ok (true, buf) := by
  have hspec := format_spec {} proper_started
    (List.length_replicate.ge : 2000 ≤ (List.replicate 2000 (0 : UInt8)).length)
  exact ⟨_, hspec.2.1 (by decide +kernel)⟩

/-! ## The buffer that is kept -/

namespace FormatWrapper

/-- What a caller gets of a record: its line up to a NUL, or nothing when the kept buffer is
too small. -/
def result (w : FormatWrapper) (env : Environment) (record : LogRecord) : Option (List UInt8) :=
  if w.allocated = 0 ∨ w.formatter.neededSize record ≤ w.allocated then
    some ((w.formatter.line env record).takeWhile (· ≠ 0))
  else none

theorem cString_append (text rest : List UInt8) :
    cString (text ++ 0 :: rest) = text.takeWhile (· ≠ 0) := by
  induction text with
  | nil => rfl
  | cons ch text ih =>
      unfold cString at ih ⊢
      rw [List.cons_append, List.takeWhile_cons, List.takeWhile_cons, ih]

/-- The array of a call is big enough. -/
theorem formatArray_eq (f : Formatter) {env : Environment} {record : LogRecord}
    (hproper : Proper env record) (hsize : Formatter.requiredSize record < 2 ^ 31) :
    ∃ rest, f.formatArray env record = .ok (f.line env record ++ 0 :: rest) := by
  have hfits := hproper.fits
  have hneeded := hproper.neededSize f
  have hrequired : Formatter.requiredSize record =
      record.text.length + record.aspect.length + record.code.length + 1024 := by
    unfold Formatter.requiredSize
    exact_mod_cast IntegerType.sizeT_of_nat (n := record.text.length + record.aspect.length +
      record.code.length + 1024) (by omega)
  have hle : f.neededSize record ≤ Formatter.requiredSize record := by
    rw [hneeded, hrequired]
    split <;> split <;> omega
  have hcast : castInt (Formatter.requiredSize record) = Formatter.requiredSize record :=
    IntegerType.castInt_of_lt (by omega) (by omega)
  have hlength := length_line_lt hproper f
  have hbuf : Formatter.requiredSize record ≤
      (List.replicate (Formatter.requiredSize record) (0 : UInt8)).length :=
    List.length_replicate.ge
  have hformat := format_eq (f := f) hproper hbuf (by omega)
  exact ⟨_, by
    rw [Formatter.formatArray, hformat, Fault.ok_bind]
    rfl⟩

/-- One call, which keeps the buffer's size. -/
theorem format_result {w : FormatWrapper} {env : Environment} {record : LogRecord}
    (hproper : Proper env record) (hbuffer : w.buffer.length = w.allocated)
    (hsize : w.allocated < 2 ^ 31)
    (hrequired : w.allocated = 0 → Formatter.requiredSize record < 2 ^ 31) :
    ∃ buffer, buffer.length = w.allocated ∧
      w.format env record = .ok (w.result env record, ⟨w.formatter, w.allocated, buffer⟩) := by
  unfold format result
  by_cases hzero : w.allocated = 0
  · obtain ⟨rest, harray⟩ := formatArray_eq w.formatter hproper (hrequired hzero)
    refine ⟨w.buffer, hbuffer, ?_⟩
    rw [if_pos hzero, if_pos (Or.inl hzero), harray, Fault.ok_bind, cString_append]
  · rw [if_neg hzero]
    rcases Nat.lt_or_ge w.allocated (w.formatter.neededSize record) with hsmall | hlarge
    · refine ⟨w.buffer, hbuffer, ?_⟩
      rw [if_neg (by omega), Formatter.format, if_pos hsmall, Fault.ok_bind]
      rfl
    · have hcast : castInt w.allocated = w.allocated :=
        IntegerType.castInt_of_lt (by omega) (by omega)
      have hlength := length_line_lt hproper w.formatter
      have hformat := format_eq (f := w.formatter) hproper hbuffer.ge (by omega)
      refine ⟨w.formatter.line env record ++
        0 :: w.buffer.drop ((w.formatter.line env record).length + 1), ?_, ?_⟩
      · rw [List.length_append, List.length_cons, List.length_drop]
        omega
      · rw [if_pos (Or.inr hlarge), hformat, Fault.ok_bind, ← cString_append]
        rfl

/-- **The kept buffer and the fresh one.**  Any number of calls give what each would give on
its own, whatever the buffer holds: the line of the record as a C string, or nothing when
the kept buffer is too small for it. -/
theorem formatAll_eq {w : FormatWrapper} (hbuffer : w.buffer.length = w.allocated)
    (hsize : w.allocated < 2 ^ 31) {calls : List (Environment × LogRecord)}
    (hproper : ∀ call ∈ calls, Proper call.1 call.2)
    (hrequired : w.allocated = 0 →
      ∀ call ∈ calls, Formatter.requiredSize call.2 < 2 ^ 31) :
    w.formatAll calls = .ok (calls.map fun call => w.result call.1 call.2) := by
  induction calls generalizing w with
  | nil => rfl
  | cons call calls ih =>
      obtain ⟨env, record⟩ := call
      obtain ⟨hfirst, hrest⟩ := List.forall_mem_cons.mp hproper
      obtain ⟨buffer, hlength, hformat⟩ := format_result hfirst hbuffer hsize
        fun hzero => hrequired hzero _ List.mem_cons_self
      have hcalls := ih (w := ⟨w.formatter, w.allocated, buffer⟩) hlength hsize hrest
        fun hzero call hcall => hrequired hzero call (List.mem_cons_of_mem _ hcall)
      rw [formatAll, hformat, Fault.ok_bind]
      dsimp only
      rw [hcalls, Fault.ok_bind]
      rfl

/-- A text that does not fit where the first one does. -/
def tooLong : LogRecord := { started with text := List.replicate 100 65 }

theorem proper_tooLong : Proper epochEnvironment tooLong where
  fits := by decide +kernel
  local_inRange := proper_started.local_inRange
  local_usec := proper_started.local_usec
  usec := proper_started.usec
  int_year := proper_started.int_year

theorem formatAll_eq_started :
    (ofSize none 1100).formatAll [(epochEnvironment, started), (epochEnvironment, tooLong)] =
      .ok [some ((({} : Formatter).line epochEnvironment started).takeWhile (· ≠ 0)), none] := by
  have hproper : ∀ call ∈ [(epochEnvironment, started), (epochEnvironment, tooLong)],
      Proper call.1 call.2 := by
    simp only [List.forall_mem_cons, List.not_mem_nil, false_implies, implies_true, and_true]
    exact ⟨proper_started, proper_tooLong⟩
  have hall := formatAll_eq (w := ofSize none 1100) List.length_replicate (by decide) hproper
    (fun hzero => absurd hzero (by decide))
  have hfits : (ofSize none 1100).result epochEnvironment started =
      some ((({} : Formatter).line epochEnvironment started).takeWhile (· ≠ 0)) :=
    if_pos (Or.inr (by decide +kernel))
  have hlong : (ofSize none 1100).result epochEnvironment tooLong = none :=
    if_neg (not_or.mpr ⟨by decide, by decide +kernel⟩)
  rw [hall, List.map_cons, List.map_singleton, hfits, hlong]

end FormatWrapper

end LiteMQ.Gears.Simple
