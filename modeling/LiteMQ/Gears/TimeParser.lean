import LiteMQ.Foundation.Cursor
import LiteMQ.Gears.TimeRoundTrip

/-!
# `from_str_` with its pointers

The parser as it walks through memory: through the value with a pointer and the size that is
left, and through the format up to the terminating zero.  Whatever the value and the
format are, it reads nothing else, and the size does not underflow; what it does is what
`fromStr_` says (`fromStrAt_of`).  What it reads without an error is in range
(`fromStrAt_safe`).
-/

namespace LiteMQ.Gears
namespace ExtendedTime

/-- The loop of `Caseless::equal`, over `len` characters of both strings. -/
def equalLoop : (str1 str2 : List Char) → (len : Nat) → Except Fault Bool
  | c1 :: str1, c2 :: str2, len =>
      if c1.toLower = c2.toLower then
        if len - 1 = 0 then .ok true else equalLoop str1 str2 (len - 1)
      else .ok false
  | _, _, _ => .error .outOfBounds

/-- `Caseless::start`: `equal` with the beginning of the string. -/
def caselessStart (name : List Char) (c : Cursor Char) : Except Fault Bool :=
  let len := Min.min name.length c.size
  if len ≠ name.length then .ok false
  else if len = 0 then .ok true
  else equalLoop c.src name len

/-- `check_name`: where it goes on when the value begins with the name. -/
def checkNameAt (c : Cursor Char) (name : List Char) : Except Fault (Option (Cursor Char)) := do
  if ← caselessStart name c then
    let c ← c.skip name.length
    .ok (some c)
  else .ok none

/-- `check_names` -/
def checkNamesAt (c : Cursor Char) (full short : List Char) :
    Except Fault (Option (Cursor Char)) := do
  match ← checkNameAt c full with
  | some c => .ok (some c)
  | none => checkNameAt c short

/-- The loop over the names of a table. -/
def findNameAt (c : Cursor Char) : (full short : List (List Char)) →
    Except Fault (Option (Nat × Cursor Char))
  | name :: full, name' :: short => do
      match ← checkNamesAt c name name' with
      | some c => .ok (some (0, c))
      | none =>
          let found ← findNameAt c full short
          .ok (found.map fun (i, c) => (i + 1, c))
  | _, _ => .ok none

/-- The loop of `read_number`: the number, how many more digits were allowed, and where it
goes on. -/
def numberLoop : (left number : Nat) → Cursor Char → Except Fault (Nat × Nat × Cursor Char)
  | 0, _, _ => .error .outOfBounds
  | left + 1, number, c => do
      let ch ← c.deref
      let c ← c.next
      let number := number * 10 + digitValue ch
      -- `--left && Ascii::NUMBER(*src)`
      if left = 0 then .ok (number, left, c)
      else
        let ch ← c.deref
        if ch.isDigit then numberLoop left number c else .ok (number, left, c)

/-- `read_number<SIZE>` -/
def readNumberAt (size : Nat) (strict : Bool) (c : Cursor Char) :
    Except Fault (Option (Nat × Cursor Char)) :=
  if c.size = 0 then .ok none
  else do
    let ch ← c.deref
    if ch.isDigit = false ∨ strict = true ∧ c.size < size then .ok none
    else
      let (number, left, c) ← numberLoop (Min.min size c.size) 0 c
      .ok (if strict = true ∧ left ≠ 0 then none else some (number, c))

/-- A numeric field. -/
def readFieldAt (size : Nat) (inRange : Nat → Bool) (error : String)
    (store : ExtendedTime → Nat → ExtendedTime) (strict : Bool) (c : Cursor Char)
    (t : ExtendedTime) : Except Fault (Except String (Cursor Char × ExtendedTime)) := do
  match ← readNumberAt size strict c with
  | some (number, c) =>
      .ok (if inRange number then .ok (c, store t number) else .error error)
  | none => .ok (.error error)

/-- The branches of `from_str_` at a percent sign. -/
def readSpecAt (strict : Bool) (spec : Char) (c : Cursor Char) (t : ExtendedTime) :
    Except Fault (Except String (Cursor Char × ExtendedTime)) :=
  match spec with
  | '%' =>
      if c.size < 1 then .ok (.error "% sign is expected but not found")
      else do
        let ch ← c.deref
        if ch ≠ '%' then .ok (.error "% sign is expected but not found")
        else
          let c ← c.next
          .ok (.ok (c, t))
  | 'a' | 'A' => do
      match ← findNameAt c daysFull daysShort with
      | some (_, c) => .ok (.ok (c, t))
      | none => .ok (.error "weekday name is expected but not found")
  | 'b' | 'B' | 'h' => do
      match ← findNameAt c monthsFull monthsShort with
      | some (m, c) => .ok (.ok (c, { t with mon := m }))
      | none => .ok (.error "month name is expected but not found")
  | 'd' | 'e' =>
      readFieldAt 2 (fun n => 1 ≤ n ∧ n ≤ 31) "day of month expected but not found"
        (fun t n => { t with mday := n }) strict c t
  | 'H' =>
      readFieldAt 2 (fun n => n ≤ 23) "hours expected but not found"
        (fun t n => { t with hour := n }) strict c t
  | 'm' =>
      readFieldAt 2 (fun n => 1 ≤ n ∧ n ≤ 12) "month number expected but not found"
        (fun t n => { t with mon := n - 1 }) strict c t
  | 'M' =>
      readFieldAt 2 (fun n => n ≤ 59) "minutes expected but not found"
        (fun t n => { t with min := n }) strict c t
  | 'q' =>
      readFieldAt 6 (fun n => n < 1000000) "microseconds expected but not found"
        (fun t n => { t with usec := n }) strict c t
  | 'S' =>
      readFieldAt 2 (fun n => n ≤ 59) "seconds expected but not found"
        (fun t n => { t with sec := n }) strict c t
  | 'Y' =>
      readFieldAt 4 (fun n => 1970 ≤ n) "year expected but not found"
        (fun t n => { t with year := n - 1900 }) strict c t
  | _ => .ok (.error "unknown format specifier")

/-- The loop over white space of the value. -/
def skipSpacesAt : (size : Nat) → (src : List Char) → Except Fault (Cursor Char)
  | 0, src => .ok ⟨src, 0⟩
  | _ + 1, [] => .error .outOfBounds
  | size + 1, ch :: src =>
      if isSpace ch then skipSpacesAt size src else .ok ⟨ch :: src, size + 1⟩

/-- The branch of `from_str_` at any other character. -/
def readLiteralAt (strict : Bool) (ch : Char) (c : Cursor Char) :
    Except Fault (Except String (Cursor Char)) :=
  if strict = false ∧ isSpace ch then do
    let c ← skipSpacesAt c.size c.src
    .ok (.ok c)
  else if c.size < 1 then .ok (.error "character is expected but not found")
  else do
    let ch' ← c.deref
    if ch' ≠ ch then .ok (.error "character is expected but not found")
    else
      let c ← c.next
      .ok (.ok c)

/-- `from_str_` over the memory of the format, with the terminating zero. -/
def fromStrAt (strict : Bool) :
    (format : List Char) → Cursor Char → ExtendedTime → Except Fault (Except String ExtendedTime)
  | [], _, _ => .error .outOfBounds
  | ch :: format, c, t =>
      if ch = '\x00' then .ok (.ok t)
      else if ch = '%' then
        match format with
        | [] => .error .outOfBounds
        | spec :: format => do
            match ← readSpecAt strict spec c t with
            | .error error => .ok (.error error)
            | .ok (c, t) => fromStrAt strict format c t
      else do
        match ← readLiteralAt strict ch c with
        | .error error => .ok (.error error)
        | .ok c => fromStrAt strict format c t

/-! ## Each function at the beginning of a text -/

theorem length_le_of_checkName {name text rest : List Char}
    (h : checkName name text = some rest) :
    name.length ≤ text.length ∧ rest = text.drop name.length := by
  induction name generalizing text with
  | nil =>
      obtain rfl := Option.some.inj h
      exact ⟨Nat.zero_le _, rfl⟩
  | cons n name ih =>
      cases text with
      | nil => cases h
      | cons c text =>
          obtain ⟨-, hrest⟩ := Option.ite_none_right_eq_some.mp h
          obtain ⟨hle, heq⟩ := ih hrest
          exact ⟨Nat.succ_le_succ hle, heq⟩

theorem equalLoop_eq {name text : List Char} (hne : name ≠ []) (hle : name.length ≤ text.length) :
    equalLoop text name name.length = .ok (checkName name text).isSome := by
  induction name generalizing text with
  | nil => exact absurd rfl hne
  | cons n name ih =>
      cases text with
      | nil => exact absurd hle (Nat.not_succ_le_zero _)
      | cons c text =>
          rw [equalLoop, checkName, List.length_cons, Nat.add_sub_cancel]
          split
          · cases name with
            | nil => rfl
            | cons n' name =>
                rw [if_neg (by simp)]
                exact ih (List.cons_ne_nil _ _) (Nat.le_of_succ_le_succ hle)
          · rfl

theorem caselessStart_of (name text : List Char) :
    caselessStart name (.of text) = .ok (checkName name text).isSome := by
  rw [caselessStart, Cursor.size_of]
  by_cases hle : name.length ≤ text.length
  · rw [Nat.min_eq_left hle, if_neg (by simp)]
    cases name with
    | nil => rfl
    | cons n name =>
        rw [if_neg (by simp)]
        exact equalLoop_eq (List.cons_ne_nil _ _) hle
  · -- the value is shorter than the name
    rw [if_pos (by omega)]
    cases hname : checkName name text with
    | none => rfl
    | some rest => exact absurd (length_le_of_checkName hname).1 hle

theorem checkNameAt_of (name text : List Char) :
    checkNameAt (.of text) name = .ok ((checkName name text).map .of) := by
  rw [checkNameAt, caselessStart_of, Fault.ok_bind]
  cases hname : checkName name text with
  | none => rfl
  | some rest =>
      obtain ⟨hle, rfl⟩ := length_le_of_checkName hname
      show (do let c ← (Cursor.of text).skip name.length; .ok (some c)) = _
      rw [Cursor.skip_of hle]
      rfl

theorem checkNamesAt_of (full short text : List Char) :
    checkNamesAt (.of text) full short =
      .ok (((checkName full text).orElse fun _ => checkName short text).map .of) := by
  rw [checkNamesAt, checkNameAt_of, Fault.ok_bind]
  cases checkName full text with
  | some rest => rfl
  | none => exact checkNameAt_of short text

theorem findNameAt_of (full short : List (List Char)) (text : List Char) :
    findNameAt (.of text) full short =
      .ok ((findName full short text).map fun (i, rest) => (i, .of rest)) := by
  induction full generalizing short with
  | nil => cases short <;> rfl
  | cons name full ih =>
      cases short with
      | nil => rfl
      | cons name' short =>
          rw [findNameAt, findName, checkNamesAt_of, Fault.ok_bind]
          cases (checkName name text).orElse fun _ => checkName name' text with
          | some rest => rfl
          | none =>
              simp only [Option.map_none]
              rw [ih, Fault.ok_bind]
              cases findName full short text <;> rfl

/-- The loop may read as many digits as there are characters, and reads what the scanner
does. -/
theorem numberLoop_of {left : Nat} {ch : Char} {text : List Char} (hdigit : ch.isDigit = true)
    (hle : left ≤ text.length) (number : Nat) :
    numberLoop (left + 1) number (.of (ch :: text)) =
      .ok ((scanDigits (left + 1) number (ch :: text)).1,
        (scanDigits (left + 1) number (ch :: text)).2.1,
        .of (scanDigits (left + 1) number (ch :: text)).2.2) := by
  induction left generalizing ch text number with
  | zero =>
      rw [numberLoop, Cursor.deref_of_cons, Fault.ok_bind, Cursor.next_of_cons, Fault.ok_bind,
        if_pos rfl, scanDigits, if_pos hdigit]
      rfl
  | succ left ih =>
      rw [numberLoop, Cursor.deref_of_cons, Fault.ok_bind, Cursor.next_of_cons, Fault.ok_bind,
        if_neg (by simp), scanDigits, if_pos hdigit]
      cases text with
      | nil => exact absurd hle (Nat.not_succ_le_zero _)
      | cons ch' text =>
          rw [Cursor.deref_of_cons, Fault.ok_bind]
          by_cases hdigit' : ch'.isDigit = true
          · rw [if_pos hdigit']
            exact ih hdigit' (Nat.le_of_succ_le_succ hle) _
          · rw [if_neg hdigit', scanDigits, if_neg hdigit']

theorem readNumberAt_of {size : Nat} (hsize : 0 < size) (strict : Bool) (text : List Char) :
    readNumberAt size strict (.of text) =
      .ok ((readNumber size strict text).map fun (n, rest) => (n, .of rest)) := by
  cases text with
  | nil => rfl
  | cons ch text =>
      rw [readNumberAt, Cursor.size_of, if_neg (by simp), Cursor.deref_of_cons, Fault.ok_bind,
        readNumber]
      split
      · rfl
      · rename_i hread
        have hdigit : ch.isDigit = true := by simpa using (not_or.mp hread).1
        -- the loop runs at least once
        obtain ⟨left, hleft⟩ : ∃ left, Min.min size (ch :: text).length = left + 1 :=
          Nat.exists_eq_succ_of_ne_zero (by simp; omega)
        have hle : left ≤ text.length := by
          have hmin := Nat.min_le_right size (ch :: text).length
          rw [hleft, List.length_cons] at hmin
          exact Nat.le_of_succ_le_succ hmin
        rw [hleft, numberLoop_of hdigit hle, Fault.ok_bind]
        simp only
        split <;> rfl

theorem readFieldAt_of {size : Nat} (hsize : 0 < size) (inRange : Nat → Bool) (error : String)
    (store : ExtendedTime → Nat → ExtendedTime) (strict : Bool) (text : List Char)
    (t : ExtendedTime) :
    readFieldAt size inRange error store strict (.of text) t =
      .ok ((readField size inRange error store strict text t).map fun (rest, t) =>
        (.of rest, t)) := by
  rw [readFieldAt, readField, readNumberAt_of hsize, Fault.ok_bind]
  cases readNumber size strict text with
  | none => rfl
  | some p =>
      simp only [Option.map_some]
      split <;> rfl

section

variable (strict : Bool) (text : List Char) (t : ExtendedTime)

theorem readSpecAt_percent :
    readSpecAt strict '%' (.of text) t =
      .ok ((readSpec strict '%' text t).map fun (rest, t) => (.of rest, t)) := by
  cases text with
  | nil => rfl
  | cons c text =>
      rw [readSpecAt, Cursor.size_of, if_neg (by simp), Cursor.deref_of_cons, Fault.ok_bind]
      by_cases hc : c = '%'
      · subst hc
        rw [if_neg (by simp), Cursor.next_of_cons]
        rfl
      · rw [if_pos hc, readSpec]
        · rfl
        · rintro rest heq
          exact hc (List.cons.inj heq).1

theorem readSpecAt_day :
    readSpecAt strict 'a' (.of text) t =
      .ok ((readSpec strict 'a' text t).map fun (rest, t) => (.of rest, t)) := by
  rw [readSpecAt, readSpec, findNameAt_of, Fault.ok_bind]
  cases findName daysFull daysShort text <;> rfl

theorem readSpecAt_month :
    readSpecAt strict 'b' (.of text) t =
      .ok ((readSpec strict 'b' text t).map fun (rest, t) => (.of rest, t)) := by
  rw [readSpecAt, readSpec, findNameAt_of, Fault.ok_bind]
  cases findName monthsFull monthsShort text <;> rfl

theorem readSpecAt_of (spec : Char) :
    readSpecAt strict spec (.of text) t =
      .ok ((readSpec strict spec text t).map fun (rest, t) => (.of rest, t)) := by
  unfold readSpecAt
  split
  · exact readSpecAt_percent strict text t
  · exact readSpecAt_day strict text t
  · exact readSpecAt_day strict text t
  · exact readSpecAt_month strict text t
  · exact readSpecAt_month strict text t
  · exact readSpecAt_month strict text t
  · exact readFieldAt_of (by decide) _ _ _ strict text t
  · exact readFieldAt_of (by decide) _ _ _ strict text t
  · exact readFieldAt_of (by decide) _ _ _ strict text t
  · exact readFieldAt_of (by decide) _ _ _ strict text t
  · exact readFieldAt_of (by decide) _ _ _ strict text t
  · exact readFieldAt_of (by decide) _ _ _ strict text t
  · exact readFieldAt_of (by decide) _ _ _ strict text t
  · exact readFieldAt_of (by decide) _ _ _ strict text t
  · -- both take the default branch
    have hunknown : readSpec strict spec text t = .error "unknown format specifier" := by
      unfold readSpec
      split <;> first | rfl | simp_all
    rw [hunknown]
    rfl

theorem skipSpacesAt_of : skipSpacesAt text.length text = .ok (.of (text.dropWhile isSpace)) := by
  induction text with
  | nil => rfl
  | cons c text ih =>
      rw [List.length_cons, skipSpacesAt]
      split
      · rename_i hspace
        rw [List.dropWhile_cons_of_pos hspace, ih]
      · rename_i hspace
        rw [List.dropWhile_cons_of_neg hspace]
        rfl

theorem readLiteralAt_of (ch : Char) :
    readLiteralAt strict ch (.of text) = .ok ((readLiteral strict ch text).map .of) := by
  rw [readLiteralAt, readLiteral.eq_def]
  split
  · have hspaces : skipSpacesAt (Cursor.of text).size (Cursor.of text).src =
        .ok (.of (text.dropWhile isSpace)) := skipSpacesAt_of text
    rw [hspaces]
    rfl
  · cases text with
    | nil => rfl
    | cons c text =>
        rw [Cursor.size_of, if_neg (by simp), Cursor.deref_of_cons, Fault.ok_bind]
        by_cases hc : c = ch
        · simp only [hc, ne_eq, not_true_eq_false, if_false, Cursor.next_of_cons, if_true]
          rfl
        · simp only [if_pos hc, if_neg hc]
          rfl

end

/-- `from_str_` reads nothing but the value and the format, and does what `fromStr_` says. -/
theorem fromStrAt_of (strict : Bool) {fmt : List Char} (hfmt : '\x00' ∉ fmt) (text : List Char)
    (t : ExtendedTime) :
    fromStrAt strict (fmt ++ ['\x00']) (.of text) t = .ok (fromStr_ strict fmt text t) := by
  induction fmt, text, t using fromStr_.induct with
  | case1 text t => rfl
  | case2 text t =>
      -- a percent sign at the end: the terminating zero is the specifier
      show fromStrAt strict ['%', '\x00'] (.of text) t = _
      rw [fromStrAt, if_neg (by decide), if_pos rfl, readSpecAt_of, Fault.ok_bind]
      rfl
  | case3 text t spec fmt ih =>
      have hrest := List.not_mem_of_not_mem_cons (List.not_mem_of_not_mem_cons hfmt)
      rw [fromStr_, if_pos rfl, List.cons_append, List.cons_append, fromStrAt,
        if_neg (by decide), if_pos rfl]
      simp only
      rw [readSpecAt_of, Fault.ok_bind]
      cases readSpec strict spec text t with
      | error error => rfl
      | ok p => exact ih p.1 p.2 hrest
  | case4 ch fmt text t hpercent ih =>
      have hch := List.ne_of_not_mem_cons hfmt
      have hrest := List.not_mem_of_not_mem_cons hfmt
      rw [fromStr_.eq_def, List.cons_append, fromStrAt.eq_def]
      simp only
      rw [if_neg (Ne.symm hch), if_neg hpercent, if_neg hpercent, readLiteralAt_of, Fault.ok_bind]
      cases readLiteral strict ch text with
      | error error => rfl
      | ok rest => exact ih rest hrest

/-! ## What is read is in range -/

/-- From the fields of the epoch on, `from_str_` reads no memory but the value and the
format, and what it gives without an error is in range. -/
theorem fromStrAt_safe (strict : Bool) (fmt text : List Char) (hfmt : '\x00' ∉ fmt) :
    ∃ result, fromStrAt strict (fmt ++ ['\x00']) (.of text) (ofTime 0 0) = .ok result ∧
      result = fromStr_ strict fmt text (ofTime 0 0) ∧
      ∀ t, result = .ok t →
        t.mon ≤ 11 ∧ 1 ≤ t.mday ∧ t.mday ≤ 31 ∧ t.hour ≤ 23 ∧ t.min ≤ 59 ∧ t.sec ≤ 59 ∧
          t.usec < 1000000 ∧ 70 ≤ t.year ∧ ∀ leap, t.mon < (daysTable leap).length := by
  refine ⟨_, fromStrAt_of strict hfmt text _, rfl, fun t ht => ?_⟩
  have hrange := fromStr_inRange ht epoch_inRange
  have hmon : t.mon < 12 := of_decide_eq_true (hrange .month)
  have hmday : 1 ≤ t.mday ∧ t.mday ≤ 31 := of_decide_eq_true (hrange .day)
  refine ⟨Nat.le_of_lt_succ hmon, hmday.1, hmday.2, of_decide_eq_true (hrange .hour),
    of_decide_eq_true (hrange .minute), of_decide_eq_true (hrange .second),
    of_decide_eq_true (hrange .microsecond), of_decide_eq_true (hrange .year), ?_⟩
  intro leap
  cases leap <;> exact hmon

/-- A date that is read without an error: the fifth of November 2013. -/
theorem fromStrAt_safe_date :
    ∃ t, fromStrAt true ("%Y-%m-%d".toList ++ ['\x00']) (.of "2013-11-05".toList) (ofTime 0 0) =
        .ok (.ok t) ∧
      t.year = 113 ∧ t.mon = 10 ∧ t.mday = 5 ∧
      t.mon ≤ 11 ∧ 1 ≤ t.mday ∧ t.mday ≤ 31 ∧ t.hour ≤ 23 ∧ t.min ≤ 59 ∧ t.sec ≤ 59 ∧
        t.usec < 1000000 ∧ 70 ≤ t.year ∧ ∀ leap, t.mon < (daysTable leap).length := by
  obtain ⟨result, hrun, hresult, hrange⟩ :=
    fromStrAt_safe true "%Y-%m-%d".toList "2013-11-05".toList (by decide)
  have hread : fromStr_ true "%Y-%m-%d".toList "2013-11-05".toList (ofTime 0 0) =
      .ok { ofTime 0 0 with year := 113, mon := 10, mday := 5 } := by
    decide +kernel
  rw [hread] at hresult
  rw [hresult] at hrun
  exact ⟨_, hrun, rfl, rfl, rfl, hrange _ hresult⟩

end ExtendedTime
end LiteMQ.Gears
