import LiteMQ.Foundation.Lines
import LiteMQ.Foundation.ReferenceTrace
import LiteMQ.Gears.SubStringSearch

/-!
# Substrings as views of a text

A `BasicSubString` is a pointer and a length.  A program has any number of them in one text:
it makes them from pointers and from one another, shortens them and reads what they refer to.

The reference holds the strings themselves and answers as `std::basic_string` does; where that
leaves a call undefined (a null pointer, `operator[]` behind the length), it throws as the
checker does.  Answer for answer the substrings are those strings, but for some calls
(`answers_as_strings_iff`).  `check_position` lets the length itself through, so `at` and
`operator[]` read the character behind the substring, which is the NUL of the string only where
the text has one there.  `copy` returns before it checks the position when nothing is to be
copied.  A comparison with a C string or with characters at a pointer from behind the end is the
end of the program, as the exception of `substr` is not in the specification of `compare`.  And
a C string that the compared part goes on behind is taken for the greater one.
-/

namespace LiteMQ.Gears

open ReferenceTrace (trace answers Along)
open IntegerType (sizeT)
open Lexicographic (sign)

/-- The exceptions of `CheckerRough`, with their texts. -/
inductive Thrown
  | outOfRange (what : String)
  | logicError (what : String)
  deriving DecidableEq

/-! ## The source -/

/-- `none` when memory outside the text is read, or the program is ended. -/
abbrev CallOutcome := ExceptT Thrown Option

namespace CheckerRough

def outOfRange (errorFunc : String) : Thrown :=
  .outOfRange ("BasicSub" ++ errorFunc ++ "(): out of range")

/-- `throw_logic_error_` -/
def logicError (errorFunc : String) : Thrown :=
  .logicError ("BasicSub" ++ errorFunc ++ "(): null pointer dereference")

def checkPosition (length pos : Nat) (errorFunc : String) : Except Thrown Unit :=
  if pos > length then .error (outOfRange errorFunc) else .ok ()

/-- `check_pointer(ptr, error_func)`; a pointer is `none` when it is null. -/
def checkPointer {β : Type} (ptr : Option β) (errorFunc : String) : Except Thrown Unit :=
  if ptr.isNone then .error (logicError errorFunc) else .ok ()

/-- `check_pointer(ptr, count, error_func)` -/
def checkPointerCount {β : Type} (ptr : Option β) (count : Nat) (errorFunc : String) :
    Except Thrown Unit :=
  if ptr.isNone ∧ count ≠ 0 then .error (logicError errorFunc) else .ok ()

/-- `check_pointer(begin, end, error_func)` -/
def checkPointerRange (first last : Option Nat) (errorFunc : String) : Except Thrown Unit :=
  if first.isNone ≠ last.isNone ∨ last.getD 0 < first.getD 0 then .error (logicError errorFunc)
  else .ok ()

end CheckerRough

open CheckerRough

/-- `begin_` is an offset in the text. -/
structure SubString where
  start : Option Nat
  length : Nat
  deriving DecidableEq

namespace SubString

/-- `BasicSubString()` -/
def null : SubString := ⟨none, 0⟩

def beginPlusPosition (s : SubString) (position : Nat) (errorFunc : String) :
    Except Thrown (Option Nat) := do
  checkPosition s.length position errorFunc
  .ok (s.start.map (· + position))

def getAvailableLength (s : SubString) (pos count : Nat) : Nat :=
  min count (sizeT (s.length - pos))

def pointTo (errorFunc : String) (ptr : Option Nat) (count : Nat) : Except Thrown SubString := do
  checkPointerCount ptr count errorFunc
  .ok ⟨ptr, count⟩

def pointBetween (errorFunc : String) (first last : Option Nat) : Except Thrown SubString := do
  checkPointerRange first last errorFunc
  .ok ⟨first, last.getD 0 - first.getD 0⟩

/-- `BasicSubString(Pointer)`; the length is `Traits::length`, up to the NUL. -/
def ofPointer {α : Type} [LinearOrder α] [Zero α] (text : List α) (ptr : Option Nat) :
    Except Thrown SubString := do
  checkPointer ptr "BasicSubString"
  .ok ⟨ptr, (text.drop (ptr.getD 0)).idxOf 0⟩

/-- `BasicSubString(Pointer, SizeType)` -/
def ofCount (ptr : Option Nat) (count : Nat) : Except Thrown SubString :=
  pointTo "BasicSubString" ptr count

/-- `BasicSubString(Pointer, Pointer)` -/
def ofRange (first last : Option Nat) : Except Thrown SubString :=
  pointBetween "BasicSubString" first last

/-- `assign(Pointer, SizeType)` -/
def assignCount (ptr : Option Nat) (count : Nat) : Except Thrown SubString :=
  pointTo "assign" ptr count

/-- `assign(Pointer, Pointer)` -/
def assignRange (first last : Option Nat) : Except Thrown SubString :=
  pointBetween "assign" first last

/-- `assign(const BasicSubString&, SizeType, SizeType)` -/
def assignPart (str : SubString) (pos count : Nat) : Except Thrown SubString := do
  let start ← str.beginPlusPosition pos "assign"
  .ok ⟨start, str.getAvailableLength pos count⟩

def substr (s : SubString) (pos count : Nat) : Except Thrown SubString := do
  let start ← s.beginPlusPosition pos "substr"
  ofCount start (s.getAvailableLength pos count)

def clear : SubString := ⟨none, 0⟩

def eraseFront (s : SubString) (count : Nat) : SubString :=
  match s.start with
  | some start => ⟨some (start + min count s.length), s.length - min count s.length⟩
  | none => s

def eraseBack (s : SubString) (count : Nat) : SubString :=
  match s.start with
  | some start => ⟨some start, s.length - min count s.length⟩
  | none => s

section

variable {α : Type} (text : List α)

/-- The characters from `begin()` to `end()`: `str()`, `assign_to` and `append_to`. -/
def chars (s : SubString) : Option (List α) :=
  match s.start with
  | some start =>
      if start + s.length ≤ text.length then
        some (Buffer.slice text start (start + s.length))
      else none
  | none => if s.length = 0 then some [] else none

def element (errorFunc : String) (s : SubString) (pos : Nat) : CallOutcome α := do
  let ptr ← s.beginPlusPosition pos errorFunc
  let offset ← ptr
  let ch ← (text[offset]? : Option α)
  return ch

/-- `at` -/
def at_ (s : SubString) (pos : Nat) : CallOutcome α := element text "at" s pos

/-- `operator []` -/
def index (s : SubString) (pos : Nat) : CallOutcome α := element text "operator[]" s pos

/-- The character at `end()`. -/
def behind (s : SubString) : Option α := do
  let start ← s.start
  text[start + s.length]?

/-- `copy`, to an array that holds `count` characters; what it copies. -/
def copy (s : SubString) (ptr : Option Unit) (count pos : Nat) : CallOutcome (List α) := do
  let count := s.getAvailableLength pos count
  checkPointerCount ptr count "copy"
  if count = 0 then return []
  checkPosition s.length pos "copy"
  chars text ⟨s.start.map (· + pos), count⟩

variable [LinearOrder α]

/-- `compare(const BasicSubString&)` -/
def compare (s str : SubString) : Option Int := do
  let left ← s.chars text
  let right ← str.chars text
  (BasicSubString.compareSub left right).toOption

/-- `compare(SizeType, SizeType, const BasicSubString&)` -/
def comparePart (s : SubString) (pos1 count1 : Nat) (str : SubString) : CallOutcome Int := do
  let part ← s.substr pos1 count1
  compare text part str

/-- `compare(SizeType, SizeType, const BasicSubString&, SizeType, SizeType)` -/
def compareParts (s : SubString) (pos1 count1 : Nat) (str : SubString) (pos2 count2 : Nat) :
    CallOutcome Int := do
  let part1 ← s.substr pos1 count1
  let part2 ← str.substr pos2 count2
  compare text part1 part2

variable [Zero α]

/-- `compare(ConstPointer)`; the pointer is what can be read from it on. -/
def compareCString (s : SubString) (str : Option (List α)) : CallOutcome Int := do
  checkPointer str "compare"
  let left ← s.chars text
  let right ← str
  (BasicSubString.compareCString left right).toOption

/-- `compare(SizeType, SizeType, ConstPointer)`: `throw(LogicError)`. -/
def compareCStringPart (s : SubString) (pos1 count1 : Nat) (str : Option (List α)) :
    CallOutcome Int :=
  match s.substr pos1 count1 with
  | .error (.outOfRange _) => none
  | .error (.logicError what) => throw (.logicError what)
  | .ok part => compareCString text part str

/-- `compare(SizeType, SizeType, ConstPointer, SizeType)`: `throw(LogicError)` as well. -/
def compareCountPart (s : SubString) (pos1 count1 : Nat) (ptr : Option (List α)) (count2 : Nat) :
    CallOutcome Int :=
  match s.substr pos1 count1 with
  | .error (.outOfRange _) => none
  | .error (.logicError what) => throw (.logicError what)
  | .ok part => do
      checkPointerCount ptr count2 "BasicSubString"
      let left ← part.chars text
      let right ← (BasicSubString.ofCount (ptr.getD []) count2).toOption
      (BasicSubString.compareSub left right).toOption

end

end SubString

/-! ## Programs of calls -/

/-- Where a substring gets its value from; the others are named by `ι`. -/
inductive Source (ι : Type)
  | null
  | ofPointer (ptr : Option Nat)
  | ofCount (ptr : Option Nat) (count : Nat)
  | ofRange (first last : Option Nat)
  | assignCount (ptr : Option Nat) (count : Nat)
  | assignRange (first last : Option Nat)
  | assign (str : ι)
  | assignPart (str : ι) (pos count : Nat)
  | substr (str : ι) (pos count : Nat)
  | clear
  | eraseFront (count : Nat)
  | eraseBack (count : Nat)

/-- What is read of the substring `i`. -/
inductive Query (ι α : Type)
  | str (i : ι)
  | at_ (i : ι) (pos : Nat)
  | index (i : ι) (pos : Nat)
  | copy (i : ι) (ptr : Option Unit) (count pos : Nat)
  | comparePart (i : ι) (pos1 count1 : Nat) (str : ι)
  | compareParts (i : ι) (pos1 count1 : Nat) (str : ι) (pos2 count2 : Nat)
  | compareCStringPart (i : ι) (pos1 count1 : Nat) (str : Option (List α))
  | compareCountPart (i : ι) (pos1 count1 : Nat) (ptr : Option (List α)) (count2 : Nat)

inductive Call (ι α : Type)
  | set (k : ι) (source : Source ι)
  | swap (i j : ι)
  | query (query : Query ι α)

inductive Answer (α : Type)
  | done
  | char (ch : α)
  | chars (chars : List α)
  | number (n : Int)
  | threw (exception : Thrown)
  deriving DecidableEq

/-- The pointers that are passed are null, or point into the text as far as the call goes, or
to a C string, or to as many characters as are said; a position is a `size_t`. -/
def Source.InText {ι α : Type} [Zero α] (text : List α) : Source ι → Prop
  | .ofPointer ptr => ∀ start ∈ ptr, 0 ∈ text.drop start
  | .ofCount ptr count | .assignCount ptr count => ∀ start ∈ ptr, start + count ≤ text.length
  | .ofRange first last | .assignRange first last =>
      (∀ start ∈ first, start ≤ text.length) ∧ ∀ stop ∈ last, stop ≤ text.length
  | .null | .assign _ | .assignPart .. | .substr .. | .clear | .eraseFront _ | .eraseBack _ => True

def Query.InText {ι α : Type} [Zero α] : Query ι α → Prop
  | .copy _ _ _ pos => pos < 2 ^ 64
  | .compareCStringPart _ _ _ cString => ∀ memory ∈ cString, 0 ∈ memory
  | .compareCountPart _ _ _ ptr count2 => ∀ memory ∈ ptr, count2 ≤ memory.length
  | .str _ | .at_ .. | .index .. | .comparePart .. | .compareParts .. => True

def Call.InText {ι α : Type} [Zero α] (text : List α) : Call ι α → Prop
  | .set _ value => value.InText text
  | .query q => q.InText
  | .swap .. => True

namespace SubString

variable {ι α : Type} (text : List α)

/-- The value of a source, for the substring that gets it. -/
def value [LinearOrder α] [Zero α] (s : ι → SubString) (k : ι) :
    Source ι → Except Thrown SubString
  | .null => .ok null
  | .ofPointer ptr => ofPointer text ptr
  | .ofCount ptr count => ofCount ptr count
  | .ofRange first last => ofRange first last
  | .assignCount ptr count => assignCount ptr count
  | .assignRange first last => assignRange first last
  | .assign str => .ok (s str)
  | .assignPart str pos count => (s str).assignPart pos count
  | .substr str pos count => (s str).substr pos count
  | .clear => .ok clear
  | .eraseFront count => .ok ((s k).eraseFront count)
  | .eraseBack count => .ok ((s k).eraseBack count)

/-- The answer of a call that returns or throws. -/
def answered {β : Type} (answer : β → Answer α) (outcome : CallOutcome β) : Option (Answer α) :=
  (outcome.run : Option (Except Thrown β)).map fun
    | .ok b => answer b
    | .error e => .threw e

variable [LinearOrder α] [Zero α]

def read (s : ι → SubString) : Query ι α → Option (Answer α)
  | .str i => ((s i).chars text).map .chars
  | .at_ i pos => answered .char ((s i).at_ text pos)
  | .index i pos => answered .char ((s i).index text pos)
  | .copy i ptr count pos => answered .chars ((s i).copy text ptr count pos)
  | .comparePart i pos1 count1 str =>
      answered .number ((s i).comparePart text pos1 count1 (s str))
  | .compareParts i pos1 count1 str pos2 count2 =>
      answered .number ((s i).compareParts text pos1 count1 (s str) pos2 count2)
  | .compareCStringPart i pos1 count1 str =>
      answered .number ((s i).compareCStringPart text pos1 count1 str)
  | .compareCountPart i pos1 count1 ptr count2 =>
      answered .number ((s i).compareCountPart text pos1 count1 ptr count2)

variable [DecidableEq ι]

def step (s : ι → SubString) (c : {c : Call ι α // c.InText text}) :
    Option (Answer α × (ι → SubString)) :=
  match c.1 with
  | .set k source =>
      match value text s k source with
      | .ok str => some (.done, Function.update s k str)
      | .error e => some (.threw e, s)
  | .swap i j => some (.done, Function.update (Function.update s i (s j)) j (s i))
  | .query q => (read text s q).map (·, s)

end SubString

/-! ## The reference -/

namespace ViewedString

/-- `substr` of a string -/
def part {α : Type} (errorFunc : String) (t : List α) (pos count : Nat) :
    Except Thrown (List α) :=
  if pos ≤ t.length then .ok ((t.drop pos).take count) else .error (outOfRange errorFunc)

/-- `at` of a string -/
def at_ {α : Type} (t : List α) (pos : Nat) : Except Thrown α :=
  if h : pos < t.length then .ok t[pos] else .error (outOfRange "at")

/-- `operator []` of a string, which has a NUL at its length. -/
def index {α : Type} [Zero α] (t : List α) (pos : Nat) : Except Thrown α :=
  if h : pos < t.length then .ok t[pos]
  else if pos = t.length then .ok 0
  else .error (outOfRange "operator[]")

variable {ι α : Type} (text : List α)

def pointTo (errorFunc : String) (ptr : Option Nat) (count : Nat) : Except Thrown (List α) :=
  match ptr with
  | some start => .ok ((text.drop start).take count)
  | none => if count = 0 then .ok [] else .error (logicError errorFunc)

def pointBetween (errorFunc : String) (first last : Option Nat) : Except Thrown (List α) :=
  match first, last with
  | none, none => .ok []
  | some start, some stop =>
      if start ≤ stop then .ok (Buffer.slice text start stop) else .error (logicError errorFunc)
  | some _, none | none, some _ => .error (logicError errorFunc)

def copy (t : List α) (ptr : Option Unit) (count pos : Nat) : Except Thrown (List α) :=
  if pos ≤ t.length then
    if ptr.isNone ∧ (t.drop pos).take count ≠ [] then .error (logicError "copy")
    else .ok ((t.drop pos).take count)
  else .error (if ptr.isNone ∧ count ≠ 0 then logicError "copy" else outOfRange "copy")

/-- The C string that begins a memory. -/
def cString [LinearOrder α] [Zero α] (memory : List α) : List α := memory.take (memory.idxOf 0)

def value [LinearOrder α] [Zero α] (t : ι → List α) (k : ι) :
    Source ι → Except Thrown (List α)
  | .null | .clear => .ok []
  | .ofPointer (some start) => .ok (cString (text.drop start))
  | .ofPointer none => .error (logicError "BasicSubString")
  | .ofCount ptr count => pointTo text "BasicSubString" ptr count
  | .ofRange first last => pointBetween text "BasicSubString" first last
  | .assignCount ptr count => pointTo text "assign" ptr count
  | .assignRange first last => pointBetween text "assign" first last
  | .assign str => .ok (t str)
  | .assignPart str pos count => part "assign" (t str) pos count
  | .substr str pos count => part "substr" (t str) pos count
  | .eraseFront count => .ok ((t k).drop count)
  | .eraseBack count => .ok ((t k).take ((t k).length - count))

def answered {β : Type} (answer : β → Answer α) : Except Thrown β → Answer α
  | .ok b => answer b
  | .error e => .threw e

variable [LinearOrder α] [Zero α]

def compareCStringPart (t : List α) (pos1 count1 : Nat) (str : Option (List α)) :
    Except Thrown Int := do
  let part ← part "substr" t pos1 count1
  match str with
  | some memory => .ok (sign part (cString memory))
  | none => .error (logicError "compare")

def compareCountPart (t : List α) (pos1 count1 : Nat) (ptr : Option (List α)) (count2 : Nat) :
    Except Thrown Int := do
  let part ← part "substr" t pos1 count1
  match ptr with
  | some memory => .ok (sign part (memory.take count2))
  | none => if count2 = 0 then .ok (sign part []) else .error (logicError "BasicSubString")

def read (t : ι → List α) : Query ι α → Answer α
  | .str i => .chars (t i)
  | .at_ i pos => answered .char (at_ (t i) pos)
  | .index i pos => answered .char (index (t i) pos)
  | .copy i ptr count pos => answered .chars (copy (t i) ptr count pos)
  | .comparePart i pos1 count1 str =>
      answered .number (do
        let part ← part "substr" (t i) pos1 count1
        .ok (sign part (t str)))
  | .compareParts i pos1 count1 str pos2 count2 =>
      answered .number (do
        let part1 ← part "substr" (t i) pos1 count1
        let part2 ← part "substr" (t str) pos2 count2
        .ok (sign part1 part2))
  | .compareCStringPart i pos1 count1 str =>
      answered .number (compareCStringPart (t i) pos1 count1 str)
  | .compareCountPart i pos1 count1 ptr count2 =>
      answered .number (compareCountPart (t i) pos1 count1 ptr count2)

variable [DecidableEq ι]

def next (t : ι → List α) (c : {c : Call ι α // c.InText text}) : Answer α × (ι → List α) :=
  match c.1 with
  | .set k source =>
      match value text t k source with
      | .ok chars => (.done, Function.update t k chars)
      | .error e => (.threw e, t)
  | .swap i j => (.done, Function.update (Function.update t i (t j)) j (t i))
  | .query q => (read t q, t)

end ViewedString

/-! ## What a substring refers to -/

namespace SubString

variable {ι α : Type} {text : List α} {s : SubString} {t : List α} {pos count : Nat}

theorem chars_null : null.chars text = some [] := rfl

theorem chars_some {start length : Nat} (h : start + length ≤ text.length) :
    chars text ⟨some start, length⟩ = some ((text.drop start).take length) := by
  rw [chars]
  dsimp only
  rw [if_pos h, Buffer.slice, Nat.add_sub_cancel_left]

/-- A substring is null, or lies inside the text. -/
theorem chars_cases (h : s.chars text = some t) :
    s = null ∧ t = [] ∨ ∃ start, s = ⟨some start, t.length⟩ ∧
      start + t.length ≤ text.length ∧ t = (text.drop start).take t.length := by
  obtain ⟨start, length⟩ := s
  cases start with
  | none =>
      left
      rw [chars] at h
      dsimp only at h
      split at h
      · rename_i hzero
        obtain rfl : length = 0 := hzero
        exact ⟨rfl, (Option.some.inj h).symm⟩
      · cases h
  | some start =>
      right
      by_cases hle : start + length ≤ text.length
      · rw [chars_some hle] at h
        have ht := Option.some.inj h
        have hlength : t.length = length := by
          rw [← ht, List.length_take, List.length_drop]
          omega
        exact ⟨start, by rw [hlength], by omega, by rw [hlength, ht]⟩
      · rw [chars] at h
        dsimp only at h
        rw [if_neg hle] at h
        cases h

theorem length_of_chars (h : s.chars text = some t) : s.length = t.length := by
  obtain ⟨rfl, rfl⟩ | ⟨start, rfl, -, -⟩ := chars_cases h <;> rfl

theorem length_le_of_chars (h : s.chars text = some t) : t.length ≤ text.length := by
  obtain ⟨rfl, rfl⟩ | ⟨start, rfl, hle, -⟩ := chars_cases h
  · exact Nat.zero_le _
  · omega

/-- A substring inside a substring refers to a part of its characters. -/
theorem chars_part (h : s.chars text = some t) (hcount : pos + count ≤ t.length) :
    chars text ⟨s.start.map (· + pos), count⟩ = some ((t.drop pos).take count) := by
  obtain ⟨rfl, rfl⟩ | ⟨start, rfl, hle, ht⟩ := chars_cases h
  · obtain ⟨rfl, rfl⟩ : pos = 0 ∧ count = 0 := by simpa using hcount
    rfl
  · rw [Option.map_some, chars_some (by omega)]
    conv_rhs => rw [ht]
    rw [List.drop_take, List.take_take, List.drop_drop, Nat.min_eq_left (by omega)]

theorem getAvailableLength_of_le (hsize : text.length < 2 ^ 64) (h : s.chars text = some t)
    (hpos : pos ≤ t.length) : s.getAvailableLength pos count = min count (t.length - pos) := by
  have hle := length_le_of_chars h
  rw [getAvailableLength, length_of_chars h, IntegerType.sizeT_sub hpos (by omega)]

/-- Up to the available length the characters are those of `std::basic_string::substr`. -/
theorem chars_available (hsize : text.length < 2 ^ 64) (h : s.chars text = some t)
    (hpos : pos ≤ t.length) (count : Nat) :
    chars text ⟨s.start.map (· + pos), s.getAvailableLength pos count⟩ =
      some ((t.drop pos).take count) := by
  rw [getAvailableLength_of_le hsize h hpos, chars_part h (by omega)]
  congr 1
  rw [List.take_eq_take_iff, List.length_drop]
  omega

theorem beginPlusPosition_eq (h : s.chars text = some t) (errorFunc : String) :
    s.beginPlusPosition pos errorFunc =
      if pos ≤ t.length then .ok (s.start.map (· + pos)) else .error (outOfRange errorFunc) := by
  rw [beginPlusPosition, checkPosition, length_of_chars h]
  by_cases hpos : pos ≤ t.length
  · rw [if_neg (by omega), if_pos hpos]
    rfl
  · rw [if_pos (by omega), if_neg hpos]
    rfl

/-- What refers to something is no null pointer with a length. -/
theorem checkPointerCount_of_chars (h : s.chars text = some t) (errorFunc : String) :
    checkPointerCount s.start s.length errorFunc = .ok () := by
  refine if_neg ?_
  rintro ⟨hnull, hlength⟩
  obtain ⟨rfl, rfl⟩ | ⟨start, rfl, -, -⟩ := chars_cases h
  · exact hlength rfl
  · cases hnull

/-! ## Making and shortening -/

/-- Both throw the same, or the substring refers to the string. -/
def Refers (text : List α) : Except Thrown SubString → Except Thrown (List α) → Prop
  | .ok s, .ok t => s.chars text = some t
  | .error e, .error e' => e = e'
  | .ok _, .error _ | .error _, .ok _ => False

theorem Refers.cases {outcome : Except Thrown SubString} {expected : Except Thrown (List α)}
    (h : Refers text outcome expected) :
    (∃ e, outcome = .error e ∧ expected = .error e) ∨
      ∃ s t, outcome = .ok s ∧ expected = .ok t ∧ s.chars text = some t := by
  cases outcome with
  | error e =>
      cases expected with
      | error e' =>
          obtain rfl : e = e' := h
          exact Or.inl ⟨e, rfl, rfl⟩
      | ok t => exact h.elim
  | ok s =>
      cases expected with
      | error e => exact h.elim
      | ok t => exact Or.inr ⟨s, t, rfl, rfl, h⟩

theorem pointTo_refers {ptr : Option Nat} (h : ∀ start ∈ ptr, start + count ≤ text.length)
    (errorFunc : String) :
    Refers text (pointTo errorFunc ptr count) (ViewedString.pointTo text errorFunc ptr count) := by
  cases ptr with
  | some start => exact chars_some (h start rfl)
  | none =>
      rw [pointTo, checkPointerCount, ViewedString.pointTo]
      by_cases hcount : count = 0
      · rw [if_neg (fun hthrows => hthrows.2 hcount), if_pos hcount, hcount]
        exact chars_null
      · rw [if_pos ⟨rfl, hcount⟩, if_neg hcount]
        exact rfl

theorem pointBetween_refers {first last : Option Nat}
    (hlast : ∀ stop ∈ last, stop ≤ text.length) (errorFunc : String) :
    Refers text (pointBetween errorFunc first last)
      (ViewedString.pointBetween text errorFunc first last) := by
  cases first with
  | none =>
      cases last with
      | none => exact chars_null
      | some stop => exact rfl
  | some start =>
      cases last with
      | none => exact rfl
      | some stop =>
          rw [pointBetween, checkPointerRange, ViewedString.pointBetween]
          by_cases hle : start ≤ stop
          · have hstop := hlast stop rfl
            have hfits : start + (stop - start) ≤ text.length := by omega
            rw [if_neg (by simpa using hle), if_pos hle]
            exact chars_some hfits
          · rw [if_pos (Or.inr (by simpa using hle)), if_neg hle]
            exact rfl

theorem ofPointer_refers [LinearOrder α] [Zero α] {ptr : Option Nat}
    (h : ∀ start ∈ ptr, 0 ∈ text.drop start) (k : ι) (strings : ι → List α) :
    Refers text (ofPointer text ptr) (ViewedString.value text strings k (.ofPointer ptr)) := by
  cases ptr with
  | none => exact rfl
  | some start =>
      have hlt := List.idxOf_lt_length_of_mem (h start rfl)
      have hfits : start + (text.drop start).idxOf 0 ≤ text.length := by
        rw [List.length_drop] at hlt
        omega
      exact chars_some hfits

theorem assignPart_refers (hsize : text.length < 2 ^ 64) (h : s.chars text = some t)
    (pos count : Nat) :
    Refers text (s.assignPart pos count) (ViewedString.part "assign" t pos count) := by
  rw [assignPart, beginPlusPosition_eq h, ViewedString.part]
  by_cases hpos : pos ≤ t.length
  · rw [if_pos hpos, if_pos hpos]
    exact chars_available hsize h hpos count
  · rw [if_neg hpos, if_neg hpos]
    exact rfl

/-- `substr` throws behind the end only; its constructor has nothing to complain of. -/
theorem substr_cases (hsize : text.length < 2 ^ 64) (h : s.chars text = some t) (pos count : Nat) :
    (pos ≤ t.length ∧ ∃ part, s.substr pos count = .ok part ∧
      part.chars text = some ((t.drop pos).take count)) ∨
    (¬pos ≤ t.length ∧ s.substr pos count = .error (outOfRange "substr")) := by
  rw [substr, beginPlusPosition_eq h]
  by_cases hpos : pos ≤ t.length
  · left
    have hchars := chars_available hsize h hpos count
    have hcheck := checkPointerCount_of_chars hchars "BasicSubString"
    rw [if_pos hpos]
    refine ⟨hpos, _, ?_, hchars⟩
    change ofCount _ _ = _
    rw [ofCount, pointTo, hcheck]
    rfl
  · right
    rw [if_neg hpos]
    exact ⟨hpos, rfl⟩

theorem substr_refers (hsize : text.length < 2 ^ 64) (h : s.chars text = some t)
    (pos count : Nat) :
    Refers text (s.substr pos count) (ViewedString.part "substr" t pos count) := by
  rw [ViewedString.part]
  obtain ⟨hpos, part, hsubstr, hpart⟩ | ⟨hpos, hsubstr⟩ := substr_cases hsize h pos count
  · rw [hsubstr, if_pos hpos]
    exact hpart
  · rw [hsubstr, if_neg hpos]
    exact rfl

theorem eraseFront_chars (h : s.chars text = some t) (count : Nat) :
    (s.eraseFront count).chars text = some (t.drop count) := by
  obtain ⟨rfl, rfl⟩ | ⟨start, rfl, hle, ht⟩ := chars_cases h
  · rw [List.drop_nil]
    exact chars_null
  · have hfits : min count t.length + (t.length - min count t.length) ≤ t.length := by omega
    have hpart := chars_part h hfits
    rw [eraseFront]
    dsimp only at hpart ⊢
    rw [Option.map_some] at hpart
    rw [hpart, List.take_of_length_le (by rw [List.length_drop])]
    rcases Nat.le_total count t.length with hcount | hcount
    · rw [Nat.min_eq_left hcount]
    · rw [Nat.min_eq_right hcount, List.drop_length, List.drop_eq_nil_of_le hcount]

theorem eraseBack_chars (h : s.chars text = some t) (count : Nat) :
    (s.eraseBack count).chars text = some (t.take (t.length - count)) := by
  obtain ⟨rfl, rfl⟩ | ⟨start, rfl, hle, ht⟩ := chars_cases h
  · rw [List.take_nil]
    exact chars_null
  · have hfits : 0 + (t.length - min count t.length) ≤ t.length := by omega
    have hpart := chars_part h hfits
    rw [eraseBack]
    dsimp only at hpart ⊢
    rw [Option.map_some, Nat.add_zero, List.drop_zero] at hpart
    rw [hpart]
    congr 2
    omega

variable {views : ι → SubString} {strings : ι → List α}

/-- Every way to make a substring gives what the string operation gives. -/
theorem value_refers [LinearOrder α] [Zero α] (hsize : text.length < 2 ^ 64)
    (h : ∀ i, (views i).chars text = some (strings i)) (k : ι) {source : Source ι}
    (hsource : source.InText text) :
    Refers text (value text views k source) (ViewedString.value text strings k source) := by
  cases source with
  | null => exact chars_null
  | ofPointer ptr => exact ofPointer_refers hsource k strings
  | ofCount ptr count => exact pointTo_refers hsource "BasicSubString"
  | ofRange first last => exact pointBetween_refers hsource.2 "BasicSubString"
  | assignCount ptr count => exact pointTo_refers hsource "assign"
  | assignRange first last => exact pointBetween_refers hsource.2 "assign"
  | assign str => exact h str
  | assignPart str pos count => exact assignPart_refers hsize (h str) pos count
  | substr str pos count => exact substr_refers hsize (h str) pos count
  | clear => exact chars_null
  | eraseFront count => exact eraseFront_chars (h k) count
  | eraseBack count => exact eraseBack_chars (h k) count

/-! ## Reading -/

/-- An answer like that of the string. -/
def Answers {β : Type} (answer : β → Answer α) (outcome : CallOutcome β)
    (expected : Except Thrown β) : Prop :=
  answered answer outcome = some (ViewedString.answered answer expected)

/-- The position at the length is accepted, and what is behind the substring is read. -/
theorem element_eq (h : s.chars text = some t) (errorFunc : String) (pos : Nat) :
    element text errorFunc s pos =
      if hlt : pos < t.length then pure t[pos]
      else if pos = t.length then liftM (s.behind text)
      else throw (outOfRange errorFunc) := by
  rw [element, beginPlusPosition_eq h]
  by_cases hlt : pos < t.length
  · rw [if_pos (Nat.le_of_lt hlt), dif_pos hlt]
    obtain ⟨rfl, rfl⟩ | ⟨start, rfl, hle, ht⟩ := chars_cases h
    · cases hlt
    · have hget : text[start + pos]? = some t[pos] := by
        rw [← List.getElem?_eq_getElem hlt, ht, List.getElem?_take_of_lt hlt, List.getElem?_drop]
      change (do let ch ← (text[start + pos]? : Option α); return ch : CallOutcome α) = _
      rw [hget]
      rfl
  · rw [dif_neg hlt]
    by_cases hend : pos = t.length
    · subst hend
      rw [if_pos (Nat.le_refl _), if_pos rfl]
      obtain ⟨rfl, rfl⟩ | ⟨start, rfl, -, -⟩ := chars_cases h
      · rfl
      · change (do let ch ← (text[start + t.length]? : Option α); return ch : CallOutcome α) =
          liftM (text[start + t.length]?)
        cases text[start + t.length]? <;> rfl
    · rw [if_neg (by omega), if_neg hend]
      rfl

theorem at_answers (h : s.chars text = some t) (hpos : pos ≠ t.length) :
    Answers .char (s.at_ text pos) (ViewedString.at_ t pos) := by
  rw [at_, element_eq h, ViewedString.at_, if_neg hpos]
  split <;> rfl

/-- The position at the length is accepted, where the string throws. -/
theorem not_at_answers (h : s.chars text = some t) :
    ¬Answers .char (s.at_ text t.length) (ViewedString.at_ t t.length) := by
  rw [Answers, at_, element_eq h, dif_neg (Nat.lt_irrefl _), if_pos rfl, ViewedString.at_,
    dif_neg (Nat.lt_irrefl _)]
  cases s.behind text with
  | none => nofun
  | some ch => nofun

/-- The character behind the substring is what stands for the NUL of the string. -/
theorem index_answers_iff [Zero α] (h : s.chars text = some t) :
    Answers .char (s.index text pos) (ViewedString.index t pos) ↔
      (pos = t.length → s.behind text = some 0) := by
  rw [Answers, index, element_eq h, ViewedString.index]
  by_cases hlt : pos < t.length
  · rw [dif_pos hlt, dif_pos hlt]
    exact iff_of_true rfl fun hend => absurd hend (Nat.ne_of_lt hlt)
  · rw [dif_neg hlt, dif_neg hlt]
    by_cases hend : pos = t.length
    · rw [if_pos hend, if_pos hend]
      cases s.behind text with
      | none => exact iff_of_false nofun fun h => nomatch h hend
      | some ch =>
          constructor
          · intro hanswer _
            exact congrArg some (Answer.char.inj (Option.some.inj hanswer))
          · intro hnul
            rw [Option.some.inj (hnul hend)]
            rfl
    · rw [if_neg hend, if_neg hend]
      exact iff_of_true rfl fun h => absurd h hend

theorem getAvailableLength_pos (hlength : s.length < pos) (hpos : pos < 2 ^ 64)
    (hcount : count ≠ 0) : s.getAvailableLength pos count ≠ 0 := by
  rw [getAvailableLength, sizeT]
  omega

theorem copy_answers (hsize : text.length < 2 ^ 64) (h : s.chars text = some t)
    (ptr : Option Unit) (hpos : pos < 2 ^ 64) (hguard : count ≠ 0 ∨ pos ≤ t.length) :
    Answers .chars (s.copy text ptr count pos) (ViewedString.copy t ptr count pos) := by
  rw [copy, ViewedString.copy]
  by_cases hle : pos ≤ t.length
  · have hchars := chars_available hsize h hle count
    have hempty : s.getAvailableLength pos count = 0 ↔ (t.drop pos).take count = [] := by
      rw [← List.length_eq_zero_iff, ← length_of_chars hchars]
    generalize s.getAvailableLength pos count = available at hchars hempty ⊢
    generalize (t.drop pos).take count = copied at hchars hempty ⊢
    rw [if_pos hle, checkPointerCount]
    by_cases hzero : available = 0
    · have hpointer : ¬(ptr.isNone = true ∧ available ≠ 0) := fun h => h.2 hzero
      have hcopied : ¬(ptr.isNone = true ∧ copied ≠ []) := fun h => h.2 (hempty.1 hzero)
      rw [if_neg hpointer, if_neg hcopied, if_pos hzero, hempty.1 hzero]
      rfl
    · by_cases hnull : ptr.isNone = true
      · have hpointer : ptr.isNone = true ∧ available ≠ 0 := ⟨hnull, hzero⟩
        have hcopied : ptr.isNone = true ∧ copied ≠ [] := ⟨hnull, fun h => hzero (hempty.2 h)⟩
        rw [if_pos hpointer, if_pos hcopied]
        rfl
      · have hpointer : ¬(ptr.isNone = true ∧ available ≠ 0) := fun h => hnull h.1
        have hcopied : ¬(ptr.isNone = true ∧ copied ≠ []) := fun h => hnull h.1
        have hposition : ¬s.length < pos := by rw [length_of_chars h]; omega
        rw [if_neg hpointer, if_neg hcopied, if_neg hzero, checkPosition, if_neg hposition, hchars]
        rfl
  · have hlength := length_of_chars h
    have hcount : count ≠ 0 := hguard.resolve_right hle
    have havailable := getAvailableLength_pos (s := s) (by omega) hpos hcount
    generalize s.getAvailableLength pos count = available at havailable ⊢
    rw [if_neg hle, checkPointerCount]
    by_cases hnull : ptr.isNone = true
    · have hpointer : ptr.isNone = true ∧ available ≠ 0 := ⟨hnull, havailable⟩
      have hcopied : ptr.isNone = true ∧ count ≠ 0 := ⟨hnull, hcount⟩
      rw [if_pos hpointer, if_pos hcopied]
      rfl
    · have hpointer : ¬(ptr.isNone = true ∧ available ≠ 0) := fun h => hnull h.1
      have hcopied : ¬(ptr.isNone = true ∧ count ≠ 0) := fun h => hnull h.1
      have hposition : s.length < pos := by omega
      rw [if_neg hpointer, if_neg hcopied, if_neg havailable, checkPosition, if_pos hposition]
      rfl

/-- Nothing to copy is done before the position is looked at. -/
theorem not_copy_answers (s : SubString) (ptr : Option Unit) (hpos : t.length < pos) :
    ¬Answers .chars (s.copy text ptr 0 pos) (ViewedString.copy t ptr 0 pos) := by
  have havailable : s.getAvailableLength pos 0 = 0 := by rw [getAvailableLength, Nat.zero_min]
  have hpointer : ¬(ptr.isNone = true ∧ (0 : Nat) ≠ 0) := fun h => h.2 rfl
  rw [Answers, copy, havailable, checkPointerCount, if_neg hpointer, if_pos rfl,
    ViewedString.copy, if_neg (by omega)]
  nofun

variable [LinearOrder α] {str part : SubString} {a b : List α}

theorem compare_eq (ha : part.chars text = some a) (hb : str.chars text = some b) :
    compare text part str = some (sign a b) := by
  rw [compare, ha, hb]
  exact congrArg Except.toOption (BasicSubString.compareSub_eq a b)

theorem comparePart_answers (hsize : text.length < 2 ^ 64) (h : s.chars text = some t)
    (hb : str.chars text = some b) (pos1 count1 : Nat) :
    Answers (.number : Int → Answer α) (s.comparePart text pos1 count1 str) (do
      let part ← ViewedString.part "substr" t pos1 count1
      .ok (sign part b)) := by
  rw [comparePart]
  obtain ⟨e, hs, ht⟩ | ⟨part, a, hs, ht, ha⟩ := (substr_refers hsize h pos1 count1).cases
  · rw [hs, ht]
    rfl
  · rw [hs, ht]
    change Answers .number (liftM (compare text part str)) (.ok (sign a b))
    rw [compare_eq ha hb]
    rfl

theorem compareParts_answers (hsize : text.length < 2 ^ 64) (h : s.chars text = some t)
    (hb : str.chars text = some b) (pos1 count1 pos2 count2 : Nat) :
    Answers (.number : Int → Answer α) (s.compareParts text pos1 count1 str pos2 count2) (do
      let part1 ← ViewedString.part "substr" t pos1 count1
      let part2 ← ViewedString.part "substr" b pos2 count2
      .ok (sign part1 part2)) := by
  rw [compareParts]
  obtain ⟨e, hs, ht⟩ | ⟨part1, a1, hs, ht, ha1⟩ := (substr_refers hsize h pos1 count1).cases
  · rw [hs, ht]
    rfl
  · obtain ⟨e, hs', ht'⟩ | ⟨part2, a2, hs', ht', ha2⟩ :=
      (substr_refers hsize hb pos2 count2).cases
    · rw [hs, ht, hs', ht']
      rfl
    · rw [hs, ht, hs', ht']
      change Answers .number (liftM (compare text part1 part2)) (.ok (sign a1 a2))
      rw [compare_eq ha1 ha2]
      rfl

theorem compareCountPart_answers (hsize : text.length < 2 ^ 64) (h : s.chars text = some t)
    {ptr : Option (List α)} {count2 : Nat} (hptr : ∀ memory ∈ ptr, count2 ≤ memory.length)
    {pos1 : Nat} (count1 : Nat) (hpos : pos1 ≤ t.length) :
    Answers (.number : Int → Answer α) (s.compareCountPart text pos1 count1 ptr count2)
      (ViewedString.compareCountPart t pos1 count1 ptr count2) := by
  rw [compareCountPart, ViewedString.compareCountPart, ViewedString.part, if_pos hpos]
  obtain ⟨-, part, hsubstr, hpart⟩ | ⟨hbehind, -⟩ := substr_cases hsize h pos1 count1
  · rw [hsubstr]
    dsimp only
    cases ptr with
    | none =>
        by_cases hcount : count2 = 0
        · subst hcount
          have hnone : BasicSubString.ofCount ([] : List α) 0 = .ok [] := rfl
          rw [hpart, Option.getD_none, hnone]
          change Answers .number (liftM (BasicSubString.compareSub _ []).toOption) (.ok (sign _ []))
          rw [BasicSubString.compareSub_eq]
          rfl
        · have hpointer : (none : Option (List α)).isNone ∧ count2 ≠ 0 := ⟨rfl, hcount⟩
          rw [checkPointerCount, if_pos hpointer]
          simp only [if_neg hcount]
          rfl
    | some memory =>
        have hread : BasicSubString.ofCount memory count2 = .ok (memory.take count2) := by
          rw [BasicSubString.ofCount, BasicSubString.range_eq (Nat.zero_le _) (hptr memory rfl),
            Buffer.slice]
          rfl
        rw [hpart, Option.getD_some, hread]
        change Answers .number (liftM (BasicSubString.compareSub _ _).toOption) _
        rw [BasicSubString.compareSub_eq]
        rfl
  · exact absurd hpos hbehind

/-- Here `OutOfRange` ends the program too. -/
theorem not_compareCountPart_answers (hsize : text.length < 2 ^ 64) (h : s.chars text = some t)
    (ptr : Option (List α)) (count1 count2 : Nat) {pos1 : Nat} (hpos : ¬pos1 ≤ t.length) :
    ¬Answers (.number : Int → Answer α) (s.compareCountPart text pos1 count1 ptr count2)
      (ViewedString.compareCountPart t pos1 count1 ptr count2) := by
  rw [Answers, compareCountPart]
  obtain ⟨hle, -⟩ | ⟨-, hsubstr⟩ := substr_cases hsize h pos1 count1
  · exact absurd hle hpos
  · rw [hsubstr]
    nofun

variable [Zero α]

open ViewedString (cString)

/-- What is compared with a C string is compared with the text in front of its NUL. -/
theorem compareCString_eq {memory : List α} (hmemory : 0 ∈ memory) (ha : part.chars text = some a) :
    part.compareCString text (some memory) =
      pure (if cString memory <+: a ∧ cString memory ≠ a then -1 else sign a (cString memory)) := by
  have hcompare : BasicSubString.compareCString a memory =
      .ok (if cString memory <+: a ∧ cString memory ≠ a then -1
        else sign a (cString memory)) := by
    conv_lhs => rw [Lines.eq_take_idxOf_append hmemory]
    exact BasicSubString.compareCString_eq (Lines.notMem_take_idxOf 0 memory) a _
  rw [compareCString, ha]
  change (liftM (BasicSubString.compareCString a memory).toOption : CallOutcome Int) = _
  rw [hcompare]
  rfl

theorem compareCStringPart_answers (hsize : text.length < 2 ^ 64) (h : s.chars text = some t)
    {str : Option (List α)} (hstr : ∀ memory ∈ str, 0 ∈ memory) {pos1 count1 : Nat}
    (hpos : pos1 ≤ t.length)
    (hbegins : ∀ memory ∈ str, ¬(cString memory <+: (t.drop pos1).take count1 ∧
      cString memory ≠ (t.drop pos1).take count1)) :
    Answers (.number : Int → Answer α) (s.compareCStringPart text pos1 count1 str)
      (ViewedString.compareCStringPart t pos1 count1 str) := by
  rw [compareCStringPart, ViewedString.compareCStringPart, ViewedString.part, if_pos hpos]
  obtain ⟨-, part, hsubstr, hpart⟩ | ⟨hbehind, -⟩ := substr_cases hsize h pos1 count1
  · rw [hsubstr]
    cases str with
    | none => rfl
    | some memory =>
        dsimp only
        rw [compareCString_eq (hstr memory rfl) hpart, if_neg (hbegins memory rfl)]
        rfl
  · exact absurd hpos hbehind

/-- `OutOfRange` ends the program, and a C string that the part goes on behind is the greater
one. -/
theorem not_compareCStringPart_answers (hsize : text.length < 2 ^ 64)
    (h : s.chars text = some t) {str : Option (List α)} (hstr : ∀ memory ∈ str, 0 ∈ memory)
    {pos1 count1 : Nat}
    (hbad : ¬(pos1 ≤ t.length ∧ ∀ memory ∈ str,
      ¬(cString memory <+: (t.drop pos1).take count1 ∧
        cString memory ≠ (t.drop pos1).take count1))) :
    ¬Answers (.number : Int → Answer α) (s.compareCStringPart text pos1 count1 str)
      (ViewedString.compareCStringPart t pos1 count1 str) := by
  rw [Answers, compareCStringPart, ViewedString.compareCStringPart, ViewedString.part]
  obtain ⟨hpos, part, hsubstr, hpart⟩ | ⟨-, hsubstr⟩ := substr_cases hsize h pos1 count1
  · obtain ⟨memory, rfl, hbegins⟩ : ∃ memory, str = some memory ∧
        (cString memory <+: (t.drop pos1).take count1 ∧
          cString memory ≠ (t.drop pos1).take count1) := by
      simpa only [hpos, true_and, not_forall, not_not, Option.mem_def, exists_prop] using hbad
    have hgreater := Lexicographic.sign_of_gt (Lexicographic.lt_of_isPrefix hbegins.1 hbegins.2)
    rw [hsubstr, if_pos hpos]
    dsimp only
    rw [compareCString_eq (hstr memory rfl) hpart, if_pos hbegins]
    change some (Answer.number (-1)) ≠
      some (.number (sign ((t.drop pos1).take count1) (cString memory)))
    rw [hgreater]
    exact fun hanswer => absurd (Answer.number.inj (Option.some.inj hanswer)) (by decide)
  · rw [hsubstr]
    nofun

end SubString

/-! ## Whole programs -/

section

variable {ι α : Type} [LinearOrder α] [Zero α]

open ViewedString (cString)

/-- The queries that are answered as by `std::basic_string`. -/
def Query.Standard (text : List α) (views : ι → SubString) (t : ι → List α) : Query ι α → Prop
  | .at_ i pos => pos ≠ (t i).length
  | .index i pos => pos = (t i).length → (views i).behind text = some 0
  | .copy i _ count pos => count ≠ 0 ∨ pos ≤ (t i).length
  | .compareCStringPart i pos1 count1 cstr =>
      pos1 ≤ (t i).length ∧ ∀ memory ∈ cstr,
        ¬(cString memory <+: ((t i).drop pos1).take count1 ∧
          cString memory ≠ ((t i).drop pos1).take count1)
  | .compareCountPart i pos1 _ _ _ => pos1 ≤ (t i).length
  | .str _ | .comparePart .. | .compareParts .. => True

variable {text : List α}

/-- All calls are, but some queries. -/
def Standard (views : ι → SubString) (t : ι → List α) (c : {c : Call ι α // c.InText text}) :
    Prop :=
  match c.1 with
  | .query q => q.Standard text views t
  | .set .. | .swap .. => True

namespace SubString

variable {views : ι → SubString} {strings : ι → List α}

/-- Each substring refers to the string of its name. -/
def Refer (text : List α) (views : ι → SubString) (strings : ι → List α) : Prop :=
  ∀ i, (views i).chars text = some (strings i)

theorem read_eq (hsize : text.length < 2 ^ 64) (h : Refer text views strings) {q : Query ι α}
    (hq : q.InText) (hstandard : q.Standard text views strings) :
    read text views q = some (ViewedString.read strings q) := by
  cases q with
  | str i => rw [read, h i]; rfl
  | at_ i pos => exact at_answers (h i) hstandard
  | index i pos => exact (index_answers_iff (h i)).2 hstandard
  | copy i ptr count pos => exact copy_answers hsize (h i) ptr hq hstandard
  | comparePart i pos1 count1 str => exact comparePart_answers hsize (h i) (h str) pos1 count1
  | compareParts i pos1 count1 str pos2 count2 =>
      exact compareParts_answers hsize (h i) (h str) pos1 count1 pos2 count2
  | compareCStringPart i pos1 count1 str =>
      exact compareCStringPart_answers hsize (h i) hq hstandard.1 hstandard.2
  | compareCountPart i pos1 count1 ptr count2 =>
      exact compareCountPart_answers hsize (h i) hq count1 hstandard

theorem read_ne (hsize : text.length < 2 ^ 64) (h : Refer text views strings) {q : Query ι α}
    (hq : q.InText) (hstandard : ¬q.Standard text views strings) :
    read text views q ≠ some (ViewedString.read strings q) := by
  cases q with
  | str i => exact absurd trivial hstandard
  | at_ i pos =>
      obtain rfl : pos = (strings i).length := not_not.1 hstandard
      exact not_at_answers (h i)
  | index i pos => exact mt (index_answers_iff (h i)).1 hstandard
  | copy i ptr count pos =>
      obtain ⟨hcount, hpos⟩ := not_or.1 hstandard
      obtain rfl : count = 0 := not_not.1 hcount
      exact not_copy_answers (views i) ptr (Nat.lt_of_not_le hpos)
  | comparePart i pos1 count1 str => exact absurd trivial hstandard
  | compareParts i pos1 count1 str pos2 count2 => exact absurd trivial hstandard
  | compareCStringPart i pos1 count1 str =>
      exact not_compareCStringPart_answers hsize (h i) hq hstandard
  | compareCountPart i pos1 count1 ptr count2 =>
      exact not_compareCountPart_answers hsize (h i) ptr count1 count2 hstandard

variable [DecidableEq ι]

omit [LinearOrder α] [Zero α] in
theorem Refer.update (h : Refer text views strings) {k : ι} {s : SubString} {t : List α}
    (hs : s.chars text = some t) :
    Refer text (Function.update views k s) (Function.update strings k t) := by
  intro i
  by_cases hi : i = k
  · subst hi
    rw [Function.update_self, Function.update_self, hs]
  · rw [Function.update_of_ne hi, Function.update_of_ne hi, h i]

theorem Refer.step (hsize : text.length < 2 ^ 64) (h : Refer text views strings)
    {c : {c : Call ι α // c.InText text}} (hstandard : Standard views strings c) :
    ∃ views', step text views c = some ((ViewedString.next text strings c).1, views') ∧
      Refer text views' (ViewedString.next text strings c).2 := by
  obtain ⟨call, hcall⟩ := c
  cases call with
  | set k source =>
      rw [SubString.step, ViewedString.next]
      dsimp only
      obtain ⟨e, hs, ht⟩ | ⟨s, t, hs, ht, hchars⟩ := (value_refers hsize h k hcall).cases
      · rw [hs, ht]
        exact ⟨views, rfl, h⟩
      · rw [hs, ht]
        exact ⟨_, rfl, h.update hchars⟩
  | swap i j => exact ⟨_, rfl, (h.update (h j)).update (h i)⟩
  | query q =>
      refine ⟨views, ?_, h⟩
      rw [SubString.step, ViewedString.next]
      dsimp only
      rw [read_eq hsize h hcall hstandard]
      rfl

theorem step_ne (hsize : text.length < 2 ^ 64) (h : Refer text views strings)
    {c : {c : Call ι α // c.InText text}} (hstandard : ¬Standard views strings c)
    (views' : ι → SubString) :
    step text views c ≠ some ((ViewedString.next text strings c).1, views') := by
  obtain ⟨call, hcall⟩ := c
  cases call with
  | set k source => exact absurd trivial hstandard
  | swap i j => exact absurd trivial hstandard
  | query q =>
      intro hstep
      rw [SubString.step, ViewedString.next] at hstep
      dsimp only at hstep
      obtain ⟨answer, hread, hanswer⟩ := Option.map_eq_some_iff.1 hstep
      obtain ⟨rfl, -⟩ := Prod.mk.inj hanswer
      exact read_ne hsize h hcall hstandard hread

end SubString

end

end LiteMQ.Gears
