import LiteMQ.Foundation.FixedDigits
import LiteMQ.Gears.Time

/-!
# `ExtendedTime::to_str_` and `ExtendedTime::from_str_`

The two interpreters of format strings.  A format is the characters of a C string
before the terminating zero, and a value is the characters that it describes.

`to_str_` fails when the output does not fit, and on a specifier that it does not know;
`from_str_` answers with the text of what it expected.  It does not look at what is left
of the value at the end of the format.
-/

namespace LiteMQ.Gears

/-- `DAYS_` -/
def daysShort : List (List Char) :=
  [['S', 'u', 'n'], ['M', 'o', 'n'], ['T', 'u', 'e'], ['W', 'e', 'd'], ['T', 'h', 'u'],
    ['F', 'r', 'i'], ['S', 'a', 't']]

/-- `DAYS_FULL_` -/
def daysFull : List (List Char) :=
  [['S', 'u', 'n', 'd', 'a', 'y'], ['M', 'o', 'n', 'd', 'a', 'y'],
    ['T', 'u', 'e', 's', 'd', 'a', 'y'], ['W', 'e', 'd', 'n', 'e', 's', 'd', 'a', 'y'],
    ['T', 'h', 'u', 'r', 's', 'd', 'a', 'y'], ['F', 'r', 'i', 'd', 'a', 'y'],
    ['S', 'a', 't', 'u', 'r', 'd', 'a', 'y']]

/-- `MONTHS_` -/
def monthsShort : List (List Char) :=
  [['J', 'a', 'n'], ['F', 'e', 'b'], ['M', 'a', 'r'], ['A', 'p', 'r'], ['M', 'a', 'y'],
    ['J', 'u', 'n'], ['J', 'u', 'l'], ['A', 'u', 'g'], ['S', 'e', 'p'], ['O', 'c', 't'],
    ['N', 'o', 'v'], ['D', 'e', 'c']]

/-- `MONTHS_FULL_` -/
def monthsFull : List (List Char) :=
  [['J', 'a', 'n', 'u', 'a', 'r', 'y'], ['F', 'e', 'b', 'r', 'u', 'a', 'r', 'y'],
    ['M', 'a', 'r', 'c', 'h'], ['A', 'p', 'r', 'i', 'l'], ['M', 'a', 'y'], ['J', 'u', 'n', 'e'],
    ['J', 'u', 'l', 'y'], ['A', 'u', 'g', 'u', 's', 't'],
    ['S', 'e', 'p', 't', 'e', 'm', 'b', 'e', 'r'], ['O', 'c', 't', 'o', 'b', 'e', 'r'],
    ['N', 'o', 'v', 'e', 'm', 'b', 'e', 'r'], ['D', 'e', 'c', 'e', 'm', 'b', 'e', 'r']]

/-- `Ascii::SPACE`, which is `isspace`. -/
def isSpace (c : Char) : Bool := c = ' ' ∨ 9 ≤ c.toNat ∧ c.toNat ≤ 13

namespace ExtendedTime

/-! ## Output -/

/-- What a specifier writes; `none` when `to_str_` does not know it.  `%F` and `%T` are
calls of `to_str_` with `%Y-%m-%d` and `%H:%M:%S`. -/
def specOutput (t : ExtendedTime) (c : Char) : Option (List Char) :=
  match c with
  | '%' => some ['%']
  | 'a' => some (daysShort.getD t.wday [])
  | 'A' => some (daysFull.getD t.wday [])
  | 'b' | 'h' => some (monthsShort.getD t.mon [])
  | 'B' => some (monthsFull.getD t.mon [])
  | 'd' => some (fixedDigits 2 t.mday)
  | 'e' =>
      some [if t.mday / 10 ≠ 0 then digitChar (t.mday / 10) else ' ', digitChar (t.mday % 10)]
  | 'F' =>
      some (fixedDigits 4 (t.year + 1900) ++ '-' :: fixedDigits 2 (t.mon + 1) ++
        '-' :: fixedDigits 2 t.mday)
  | 'H' => some (fixedDigits 2 t.hour)
  | 'k' => some (Nat.toDigits 10 t.hour)
  | 'm' => some (fixedDigits 2 (t.mon + 1))
  | 'M' => some (fixedDigits 2 t.min)
  | 'q' => some (fixedDigits 6 t.usec)
  | 's' => some (Nat.toDigits 10 t.toTime.tvSec)
  | 'S' => some (fixedDigits 2 t.sec)
  | 'T' =>
      some (fixedDigits 2 t.hour ++ ':' :: fixedDigits 2 t.min ++ ':' :: fixedDigits 2 t.sec)
  | 'Y' => some (fixedDigits 4 (t.year + 1900))
  | 'z' => some ['+', '0', '0', '0', '0']
  | _ => none

/-- `to_str_`: the output for the format behind `size` characters of a buffer of `length`;
`none` when it returns 0 early. -/
def toStr_ (t : ExtendedTime) (length : Nat) : List Char → (size : Nat) → Option (List Char)
  | [], _ => some []
  | c :: fmt, size =>
      if c = '%' then
        match fmt with
        -- the terminating zero is no specifier
        | [] => none
        | spec :: fmt =>
            (t.specOutput spec).bind fun out =>
              if length < size + out.length then none
              else (toStr_ t length fmt (size + out.length)).map (out ++ ·)
      else if length = size then none
      else (toStr_ t length fmt (size + 1)).map (c :: ·)

/-- The expansion of a format; `none` when there is a specifier that `to_str_` does not
know. -/
def expansion (t : ExtendedTime) : List Char → Option (List Char)
  | [] => some []
  | c :: fmt =>
      if c = '%' then
        match fmt with
        | [] => none
        | spec :: fmt =>
            (t.specOutput spec).bind fun out => (expansion t fmt).map (out ++ ·)
      else (expansion t fmt).map (c :: ·)

/-- `format`; `none` when it throws. -/
def format (t : ExtendedTime) (fmt : List Char) : Option (List Char) :=
  (t.toStr_ 256 fmt 0).filter fun out => out.length ≠ 0

/-! ## The room for the output -/

/-- There is room for an output and what is behind it. -/
theorem filter_room (out : List Char) (e : Option (List Char)) (length size : Nat) :
    ((e.map (out ++ ·)).filter fun all => size + all.length ≤ length) =
      if length < size + out.length then none
      else (e.filter fun behind => size + out.length + behind.length ≤ length).map (out ++ ·) := by
  cases e with
  | none =>
      split
      · rfl
      · rfl
  | some behind =>
      rw [Option.map_some, Option.filter_some, Option.filter_some]
      simp only [List.length_append, decide_eq_true_eq]
      split
      · rename_i hroom
        rw [if_neg (by omega), if_pos (by omega), Option.map_some]
      · rename_i hfull
        split
        · rfl
        · rw [if_neg (by omega), Option.map_none]

/-- The formatter without its buffer gives the expansion when there is room for it. -/
theorem toStr_eq (t : ExtendedTime) {length : Nat} (fmt : List Char) {size : Nat}
    (hsize : size ≤ length) :
    t.toStr_ length fmt size = (expansion t fmt).filter fun out => size + out.length ≤ length := by
  induction fmt using expansion.induct generalizing size with
  | case1 =>
      rw [expansion, Option.filter_some, if_pos (by simpa using hsize)]
      rfl
  | case2 => rfl
  | case3 spec fmt ih =>
      rw [toStr_, expansion, if_pos rfl, if_pos rfl]
      cases t.specOutput spec with
      | none => rfl
      | some out =>
          rw [Option.bind_some, Option.bind_some, filter_room]
          split
          · rfl
          · rw [ih (by omega)]
  | case4 c fmt hpercent ih =>
      rw [toStr_.eq_def, expansion.eq_def]
      simp only
      rw [if_neg hpercent, if_neg hpercent]
      refine Eq.trans ?_ (filter_room [c] (expansion t fmt) length size).symm
      rw [List.length_singleton]
      split
      · rw [if_pos (by omega)]
      · rw [if_neg (by omega), ih (by omega)]
        rfl

/-! ## Input -/

/-- `read_number<SIZE>`: the number and the rest of the value. -/
def readNumber (size : Nat) (strict : Bool) (value : List Char) : Option (Nat × List Char) :=
  match value with
  | [] => none
  | c :: _ =>
      if c.isDigit = false ∨ strict = true ∧ value.length < size then none
      else
        let (number, left, rest) := scanDigits (Min.min size value.length) 0 value
        if strict = true ∧ left ≠ 0 then none else some (number, rest)

/-- `check_name`: the rest of the value behind the name, in letters of either case. -/
def checkName : (name value : List Char) → Option (List Char)
  | [], value => some value
  | _ :: _, [] => none
  | n :: name, c :: value => if c.toLower = n.toLower then checkName name value else none

/-- The loop over the names: the index of the first one that the value begins with, in
its full or its short form. -/
def findName : (full short : List (List Char)) → List Char → Option (Nat × List Char)
  | name :: full, name' :: short, value =>
      match (checkName name value).orElse fun _ => checkName name' value with
      | some rest => some (0, rest)
      | none => (findName full short value).map fun (i, rest) => (i + 1, rest)
  | _, _, _ => none

/-- A numeric field of `from_str_`: a number of at most `size` digits that is `inRange`. -/
def readField (size : Nat) (inRange : Nat → Bool) (error : String)
    (store : ExtendedTime → Nat → ExtendedTime) (strict : Bool) (value : List Char)
    (t : ExtendedTime) : Except String (List Char × ExtendedTime) :=
  match readNumber size strict value with
  | some (number, rest) => if inRange number then .ok (rest, store t number) else .error error
  | none => .error error

/-- A specifier of `from_str_`. -/
def readSpec (strict : Bool) (c : Char) (value : List Char) (t : ExtendedTime) :
    Except String (List Char × ExtendedTime) :=
  match c with
  | '%' =>
      match value with
      | '%' :: rest => .ok (rest, t)
      | _ => .error "% sign is expected but not found"
  | 'a' | 'A' =>
      match findName daysFull daysShort value with
      | some (_, rest) => .ok (rest, t)
      | none => .error "weekday name is expected but not found"
  | 'b' | 'B' | 'h' =>
      match findName monthsFull monthsShort value with
      | some (m, rest) => .ok (rest, { t with mon := m })
      | none => .error "month name is expected but not found"
  | 'd' | 'e' =>
      readField 2 (fun n => 1 ≤ n ∧ n ≤ 31) "day of month expected but not found"
        (fun t n => { t with mday := n }) strict value t
  | 'H' =>
      readField 2 (fun n => n ≤ 23) "hours expected but not found"
        (fun t n => { t with hour := n }) strict value t
  | 'm' =>
      readField 2 (fun n => 1 ≤ n ∧ n ≤ 12) "month number expected but not found"
        (fun t n => { t with mon := n - 1 }) strict value t
  | 'M' =>
      readField 2 (fun n => n ≤ 59) "minutes expected but not found"
        (fun t n => { t with min := n }) strict value t
  | 'q' =>
      readField 6 (fun n => n < 1000000) "microseconds expected but not found"
        (fun t n => { t with usec := n }) strict value t
  | 'S' =>
      readField 2 (fun n => n ≤ 59) "seconds expected but not found"
        (fun t n => { t with sec := n }) strict value t
  | 'Y' =>
      readField 4 (fun n => 1970 ≤ n) "year expected but not found"
        (fun t n => { t with year := n - 1900 }) strict value t
  | _ => .error "unknown format specifier"

/-- A character of the format that is no specifier. -/
def readLiteral (strict : Bool) (c : Char) (value : List Char) : Except String (List Char) :=
  if strict = false ∧ isSpace c then .ok (value.dropWhile isSpace)
  else
    match value with
    | [] => .error "character is expected but not found"
    | c' :: rest =>
        if c' = c then .ok rest else .error "character is expected but not found"

/-- `from_str_`: the fields that the value gives, or the text of what was expected. -/
def fromStr_ (strict : Bool) : (fmt value : List Char) → ExtendedTime → Except String ExtendedTime
  | [], _, t => .ok t
  | c :: fmt, value, t =>
      if c = '%' then
        match fmt with
        | [] => .error "unknown format specifier"
        | spec :: fmt =>
            (readSpec strict spec value t).bind fun (rest, t) => fromStr_ strict fmt rest t
      else (readLiteral strict c value).bind fun rest => fromStr_ strict fmt rest t

end ExtendedTime

/-- `Time::set(value, format, strict)`: the time, or the error that the exception names. -/
def Time.set (value fmt : List Char) (strict : Bool) : Except String Time :=
  ((ExtendedTime.ofTime 0 0).fromStr_ strict fmt value).map ExtendedTime.toTime

end LiteMQ.Gears
