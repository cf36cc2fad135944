import LiteMQ.Gears.BoundedCopy
import LiteMQ.Gears.IntToStr

/-!
# `concat`

`concat` appends one argument after the other and goes on where the overload for the type
of the argument says.  The overloads for texts say it right.  The one for integers takes
the NUL that `int_to_str` has written for part of the length that it returns, so what
follows overwrites the last digit; and it ends the text at the least number of a signed
type.

So a list of texts is composed into a buffer of any size, and a list with an integer never
is, however large the buffer (`concat_composes_iff`).
-/

namespace LiteMQ.Gears.StringManip

open Decimal

/-! ## The arguments -/

/-- A C string, without its NUL. -/
structure CString where
  text : List UInt8
  noNul : 0 ∉ text

/-- An integer of one of the types of the language. -/
structure IntegerArg where
  type : IntegerType
  width_le : type.digits ≤ 64
  value : Int
  fits : type.Fits value

inductive Arg
  | cString (str : CString)
  | subString (str : List UInt8)
  | string (str : List UInt8)
  | integer (number : IntegerArg)

/-- The text of an argument. -/
def Arg.text : Arg → List UInt8
  | .cString str => str.text
  | .subString str => str
  | .string str => str
  | .integer number => textOf number.value

def Arg.isInteger : Arg → Bool
  | .integer _ => true
  | _ => false

/-- The texts of the arguments. -/
def texts (args : List Arg) : List UInt8 := args.flatMap Arg.text

theorem texts_nil : texts [] = [] := rfl

theorem texts_cons (f : Arg) (args : List Arg) : texts (f :: args) = f.text ++ texts args :=
  List.flatMap_cons

/-! ## The overloads -/

/-- `append(char*, size_t, const char*)`: what it returns, and the buffer. -/
def appendCString (buffer : List UInt8) (size : Nat) (str : CString) :
    Except Fault (Nat × List UInt8) := do
  let (length, buffer) ← strlcpy buffer (str.text ++ [0]) size
  .ok (if length < size then length else size, buffer)

/-- `append(char*, size_t, const SubString&)` -/
def appendSubString (buffer : List UInt8) (size : Nat) (str : List UInt8) :
    Except Fault (Nat × List UInt8) :=
  if str.length ≥ size then
    match size with
    -- The number of characters to copy has wrapped around to the greatest one.
    | 0 => .error .outOfBounds
    | size + 1 => do
        let buffer ← Buffer.storeRange buffer 0 (str.take size)
        let buffer ← Buffer.store buffer size 0
        .ok (size + 1, buffer)
  else do
    let buffer ← Buffer.storeRange buffer 0 str
    .ok (str.length, buffer)

/-- `append(char*, size_t, Integer)`; `none` when an intermediate value overflows. -/
def appendInteger (buffer : List UInt8) (size : Nat) (integer : IntegerArg) :
    Option (Except Fault (Nat × List UInt8)) := do
  let converted ← intToStr integer.type integer.value buffer size
  some do
    let (res, buffer) ← converted
    if res = 0 then do
      let buffer ← Buffer.store buffer 0 0
      .ok (size, buffer)
    else .ok (res - 1, buffer)

/-- `append`, by the type of the argument. -/
def append (buffer : List UInt8) (size : Nat) : Arg → Option (Except Fault (Nat × List UInt8))
  | .cString str => some (appendCString buffer size str)
  | .subString str => some (appendSubString buffer size str)
  | .string str => some (appendSubString buffer size str)
  | .integer number => appendInteger buffer size number

/-- `concat`, on what lies from `buffer` on. -/
def concat : (buffer : List UInt8) → (size : Nat) → List Arg →
    Option (Except Fault (List UInt8))
  | buffer, size, [] => some do
      ensure (size ≠ 0) .assertionFailed
      Buffer.store buffer 0 0
  | buffer, size, f :: args => do
      match ← append buffer size f with
      | .error fault => some (.error fault)
      | .ok (length, buffer) =>
          if length < size then do
            let rest ← concat (buffer.drop length) (size - length) args
            some do
              let rest ← rest
              .ok (buffer.take length ++ rest)
          else some (.ok buffer)

/-! ## What one argument leaves -/

section

variable (room beyond : List UInt8) (f : Arg) (text : List UInt8)

/-- The argument leaves the text, and the next one is to go behind it. -/
def Advances : Prop :=
  ∃ tail, tail ≠ [] ∧ (text ++ tail).length = room.length ∧
    append (room ++ beyond) room.length f =
      some (.ok (text.length, text ++ tail ++ beyond))

/-- The argument leaves the text with a NUL, and nothing else is to follow. -/
def Stops : Prop :=
  ∃ rest, (text ++ 0 :: rest).length = room.length ∧
    append (room ++ beyond) room.length f =
      some (.ok (room.length, text ++ 0 :: rest ++ beyond))

/-- The arguments leave the text with a NUL. -/
def Leaves (args : List Arg) : Prop :=
  ∃ rest, (text ++ 0 :: rest).length = room.length ∧
    concat (room ++ beyond) room.length args = some (.ok (text ++ 0 :: rest ++ beyond))

end

variable {room beyond : List UInt8} {f : Arg} {args : List Arg} {text : List UInt8}

theorem Leaves.nil (hroom : room ≠ []) (beyond : List UInt8) : Leaves room beyond [] [] := by
  obtain ⟨x, rest, rfl⟩ := List.exists_cons_of_ne_nil hroom
  refine ⟨rest, rfl, ?_⟩
  rw [concat, ensure_of_true _ (by simp), Fault.ok_bind, List.cons_append,
    Buffer.store_eq_ok (by simp)]
  rfl

theorem Leaves.of_stops (h : Stops room beyond f text) (args : List Arg) :
    Leaves room beyond text (f :: args) := by
  obtain ⟨rest, hlen, happend⟩ := h
  refine ⟨rest, hlen, ?_⟩
  rw [concat, happend]
  simp

/-- What is left of the room behind an argument, and what the others make of it. -/
theorem Advances.leaves (h : Advances room beyond f text) (args : List Arg) :
    ∃ tail, tail ≠ [] ∧ text.length + tail.length = room.length ∧
      ∀ more, Leaves tail beyond more args → Leaves room beyond (text ++ more) (f :: args) := by
  obtain ⟨tail, htail, hlen, happend⟩ := h
  have hpos : 0 < tail.length := List.length_pos_iff.2 htail
  rw [List.length_append] at hlen
  refine ⟨tail, htail, hlen, ?_⟩
  rintro more ⟨rest, hrest, hconcat⟩
  have hdrop : (text ++ tail ++ beyond).drop text.length = tail ++ beyond := by
    rw [List.append_assoc, List.drop_left]
  have htake : (text ++ tail ++ beyond).take text.length = text := by
    rw [List.append_assoc, List.take_left]
  have hsize : room.length - text.length = tail.length := by omega
  refine ⟨rest, by simp only [List.append_assoc, List.length_append] at hrest ⊢; omega, ?_⟩
  rw [concat, happend]
  simp only [Option.bind_eq_bind, Option.bind_some, hdrop, htake, hsize, hconcat]
  rw [if_pos (by omega)]
  simp

/-! ## The overloads for texts -/

theorem advances_cString {str : CString} (h : str.text.length < room.length) :
    Advances room beyond (.cString str) str.text := by
  have hroom : room ≠ [] := by
    rintro rfl
    exact Nat.not_lt_zero _ h
  refine ⟨0 :: room.drop (str.text.length + 1), List.cons_ne_nil _ _, by simp; omega, ?_⟩
  rw [append, appendCString, strlcpy_eq str.noNul, if_neg hroom, terminated_of_lt h,
    Fault.ok_bind]
  simp only [if_pos h]

theorem advances_subString {str : List UInt8} (h : str.length < room.length) :
    some (appendSubString (room ++ beyond) room.length str) =
      some (.ok (str.length, str ++ room.drop str.length ++ beyond)) := by
  have hstore := Buffer.storeRange_append []
    (show str.length ≤ (room ++ beyond).length by simp; omega)
  rw [List.nil_append, List.length_nil, List.nil_append,
    List.drop_append_of_le_length (by omega)] at hstore
  unfold appendSubString
  rw [if_neg (by omega), hstore, Fault.ok_bind, List.append_assoc]

/-- A text with room for it and for a NUL. -/
theorem advances_text (hf : f.isInteger = false) (h : f.text.length < room.length) :
    Advances room beyond f f.text := by
  have htail : room.drop f.text.length ≠ [] := by
    rw [← List.length_pos_iff, List.length_drop]
    omega
  have hlen : (f.text ++ room.drop f.text.length).length = room.length := by simp; omega
  cases f with
  | cString str => exact advances_cString h
  | subString str => exact ⟨_, htail, hlen, advances_subString h⟩
  | string str => exact ⟨_, htail, hlen, advances_subString h⟩
  | integer number => cases hf

theorem stops_cString (hroom : room ≠ []) {str : CString} (h : room.length ≤ str.text.length) :
    Stops room beyond (.cString str) (str.text.take (room.length - 1)) := by
  have hpos : 0 < room.length := List.length_pos_iff.2 hroom
  refine ⟨[], by simp; omega, ?_⟩
  rw [append, appendCString, strlcpy_eq str.noNul, if_neg hroom, terminated_of_le hroom h,
    Fault.ok_bind]
  simp only [if_neg (Nat.not_lt.2 h)]

theorem stops_subString (hroom : room ≠ []) {str : List UInt8} (h : room.length ≤ str.length) :
    some (appendSubString (room ++ beyond) room.length str) =
      some (.ok (room.length, str.take (room.length - 1) ++ [0] ++ beyond)) := by
  obtain ⟨before, x, rfl⟩ := (List.eq_nil_or_concat' room).resolve_left hroom
  rw [List.length_append, List.length_singleton] at h ⊢
  have htake : (str.take before.length).length = before.length := List.length_take_of_le (by omega)
  have hcopy := Buffer.storeRange_append []
    (show (str.take before.length).length ≤ (before ++ x :: beyond).length by simp)
  have hdrop : (before ++ x :: beyond).drop before.length = x :: beyond := List.drop_left
  have hstore := Buffer.store_append (str.take before.length) x 0 beyond
  rw [htake, List.nil_append, List.length_nil, List.nil_append, hdrop] at hcopy
  rw [htake] at hstore
  unfold appendSubString
  rw [if_pos h]
  simp only [List.append_assoc, List.singleton_append, hcopy, Fault.ok_bind, hstore]
  simp

/-- A text without room for it. -/
theorem stops_text (hf : f.isInteger = false) (hroom : room ≠ [])
    (h : room.length ≤ f.text.length) :
    Stops room beyond f (f.text.take (room.length - 1)) := by
  have hpos : 0 < room.length := List.length_pos_iff.2 hroom
  have hlen : (f.text.take (room.length - 1) ++ [0]).length = room.length := by simp; omega
  cases f with
  | cString str => exact stops_cString hroom h
  | subString str => exact ⟨[], hlen, stops_subString hroom h⟩
  | string str => exact ⟨[], hlen, stops_subString hroom h⟩
  | integer number => cases hf

/-! ## The overload for integers -/

/-- The least number of a signed type, which `int_to_str` does not write. -/
def IntegerArg.IsLeast (number : IntegerArg) : Prop :=
  number.type.signed = true ∧ number.value = number.type.min

instance (number : IntegerArg) : Decidable number.IsLeast := inferInstanceAs (Decidable (_ ∧ _))

/-- An integer with room for it loses its last digit. -/
theorem advances_integer {number : IntegerArg} (hleast : ¬number.IsLeast)
    (h : number.type.digits10 + 3 ≤ room.length) :
    Advances room beyond (.integer number) (textOf number.value).dropLast := by
  have hlow := neg_max_le number.fits hleast
  have hlength := length_textOf_le hlow number.fits.2
  have hconv := intToStr_eq number.fits hlow h
    (show room.length ≤ (room ++ beyond).length by simp)
  obtain ⟨digits, last, htext⟩ := (List.eq_nil_or_concat' (textOf number.value)).resolve_left
    (List.length_pos_iff.1 (textOf_pos number.value))
  rw [htext, List.length_append, List.length_singleton] at hconv hlength
  rw [htext, List.dropLast_concat]
  refine ⟨last :: 0 :: room.drop (digits.length + 1 + 1), List.cons_ne_nil _ _, ?_, ?_⟩
  · simp
    omega
  · rw [append, appendInteger, hconv]
    simp only [Option.bind_eq_bind, Option.bind_some, Fault.ok_bind]
    rw [if_neg (by omega), List.drop_append_of_le_length (by omega)]
    simp

/-- The text ends at an integer that is not written. -/
theorem stops_integer {number : IntegerArg} (hroom : room ≠ [])
    (h : number.IsLeast ∨ room.length < number.type.digits10 + 3) :
    Stops room beyond (.integer number) [] := by
  obtain ⟨x, rest, rfl⟩ := List.exists_cons_of_ne_nil hroom
  have hconv : intToStr number.type number.value (x :: rest ++ beyond) (x :: rest).length =
      some (.ok (0, x :: rest ++ beyond)) := by
    rcases h with ⟨hsigned, hmin⟩ | hsmall
    · rw [hmin]
      exact intToStr_min hsigned _ _
    · rw [intToStr, if_pos hsmall]
  refine ⟨rest, rfl, ?_⟩
  rw [append, appendInteger, hconv]
  rfl

/-- Every argument keeps to the room. -/
theorem advances_or_stops (hroom : room ≠ []) (beyond : List UInt8) (f : Arg) :
    (∃ text, Advances room beyond f text) ∨ ∃ text, Stops room beyond f text := by
  cases hf : f.isInteger with
  | false =>
      rcases Nat.lt_or_ge f.text.length room.length with h | h
      · exact Or.inl ⟨_, advances_text hf h⟩
      · exact Or.inr ⟨_, stops_text hf hroom h⟩
  | true =>
      cases f with
      | integer number =>
          by_cases h : number.IsLeast ∨ room.length < number.type.digits10 + 3
          · exact Or.inr ⟨_, stops_integer hroom h⟩
          · rw [not_or, Nat.not_lt] at h
            exact Or.inl ⟨_, advances_integer h.1 h.2⟩
      | cString str => cases hf
      | subString str => cases hf
      | string str => cases hf

/-! ## All arguments -/

/-- Whatever the arguments are, `concat` leaves a text with a NUL within the size. -/
theorem exists_leaves (hroom : room ≠ []) (beyond : List UInt8) (args : List Arg) :
    ∃ text, Leaves room beyond text args := by
  induction args generalizing room with
  | nil => exact ⟨[], Leaves.nil hroom beyond⟩
  | cons f args ih =>
      rcases advances_or_stops hroom beyond f with ⟨text, hadvances⟩ | ⟨text, hstops⟩
      · obtain ⟨tail, htail, -, hleaves⟩ := hadvances.leaves args
        obtain ⟨more, hmore⟩ := ih htail
        exact ⟨text ++ more, hleaves more hmore⟩
      · exact ⟨text, Leaves.of_stops hstops args⟩

/-- Texts are composed, as far as there is room for them. -/
theorem leaves_texts (hargs : ∀ f ∈ args, f.isInteger = false) (hroom : room ≠ [])
    (beyond : List UInt8) : Leaves room beyond ((texts args).take (room.length - 1)) args := by
  induction args generalizing room with
  | nil =>
      rw [texts_nil, List.take_nil]
      exact Leaves.nil hroom beyond
  | cons f args ih =>
      obtain ⟨hf, hargs⟩ := List.forall_mem_cons.1 hargs
      have hpos : 0 < room.length := List.length_pos_iff.2 hroom
      rw [texts_cons]
      rcases Nat.lt_or_ge f.text.length room.length with h | h
      · have hadvances : Advances room beyond f f.text := advances_text hf h
        obtain ⟨tail, htail, hlen, hleaves⟩ := hadvances.leaves args
        have htake : (f.text ++ texts args).take (room.length - 1) =
            f.text ++ (texts args).take (tail.length - 1) := by
          rw [List.take_append, List.take_of_length_le (by omega)]
          congr 2
          omega
        rw [htake]
        exact hleaves _ (ih hargs htail)
      · rw [List.take_append_of_le_length (by omega)]
        exact Leaves.of_stops (stops_text hf hroom h) args

/-- What the next argument leaves of an argument; `none` when there is no next one. -/
def Arg.kept : Arg → Option (List UInt8)
  | .integer number => if number.IsLeast then none else some (textOf number.value).dropLast
  | f => some f.text

/-- What `concat` leaves of the arguments when there is room for all of them. -/
def written : List Arg → List UInt8
  | [] => []
  | f :: args =>
      match f.kept with
      | some text => text ++ written args
      | none => []

theorem textOf_noNul (value : Int) : 0 ∉ textOf value := by
  have hdigits : 0 ∉ decimal value.natAbs := by
    intro h0
    have hdigit := (decimal_isDigits value.natAbs).isDigit 0 h0
    exact absurd hdigit (by decide)
  unfold textOf
  split
  · exact List.not_mem_cons_of_ne_of_not_mem (by decide) hdigits
  · exact hdigits

/-- An argument loses something just when it is an integer. -/
theorem exists_kept {text : List UInt8} (h : f.kept = some text) :
    ∃ lost, f.text = text ++ lost ∧ 0 ∉ lost ∧ (lost = [] ↔ f.isInteger = false) := by
  cases f with
  | integer number =>
      rw [Arg.kept] at h
      split at h
      · cases h
      · obtain ⟨digits, last, htext⟩ :=
          (List.eq_nil_or_concat' (textOf number.value)).resolve_left
            (List.length_pos_iff.1 (textOf_pos number.value))
        have hnul := textOf_noNul number.value
        rw [htext, List.mem_append, not_or] at hnul
        rw [htext, List.dropLast_concat] at h
        cases h
        exact ⟨[last], htext, hnul.2, by simp [Arg.isInteger]⟩
  | cString str =>
      cases h
      exact ⟨[], by simp [Arg.text], List.not_mem_nil, by simp [Arg.isInteger]⟩
  | subString str =>
      cases h
      exact ⟨[], by simp [Arg.text], List.not_mem_nil, by simp [Arg.isInteger]⟩
  | string str =>
      cases h
      exact ⟨[], by simp [Arg.text], List.not_mem_nil, by simp [Arg.isInteger]⟩

theorem advances_kept {text : List UInt8} (h : f.kept = some text)
    (hroom : f.text.length + 24 ≤ room.length) : Advances room beyond f text := by
  cases f with
  | integer number =>
      have hdigits := IntegerType.digits10_lt number.type number.width_le
      rw [Arg.kept] at h
      split at h
      · cases h
      · cases h
        exact advances_integer (by assumption) (by omega)
  | cString str =>
      cases h
      exact advances_text rfl (by omega)
  | subString str =>
      cases h
      exact advances_text rfl (by omega)
  | string str =>
      cases h
      exact advances_text rfl (by omega)

theorem integer_of_not_kept (h : f.kept = none) :
    ∃ number, f = .integer number ∧ number.IsLeast := by
  cases f with
  | integer number =>
      rw [Arg.kept] at h
      split at h
      · exact ⟨number, rfl, by assumption⟩
      · cases h
  | cString str => cases h
  | subString str => cases h
  | string str => cases h

/-- What `concat` leaves when there is room for all texts and for the longest number. -/
theorem leaves_written (hroom : (texts args).length + 24 ≤ room.length) (beyond : List UInt8) :
    Leaves room beyond (written args) args := by
  induction args generalizing room with
  | nil => exact Leaves.nil (by rintro rfl; cases hroom) beyond
  | cons f args ih =>
      rw [texts_cons, List.length_append] at hroom
      rw [written]
      split
      · rename_i text hkept
        obtain ⟨lost, htext, -⟩ := exists_kept hkept
        rw [htext, List.length_append] at hroom
        have hadvances : Advances room beyond f text :=
          advances_kept hkept (by rw [htext, List.length_append]; omega)
        obtain ⟨tail, -, hlen, hleaves⟩ := hadvances.leaves args
        exact hleaves _ (ih (by omega))
      · rename_i hkept
        obtain ⟨number, rfl, hleast⟩ := integer_of_not_kept hkept
        exact Leaves.of_stops (stops_integer (by rintro rfl; simp at hroom) (Or.inl hleast)) args

theorem length_written_le (args : List Arg) : (written args).length ≤ (texts args).length := by
  induction args with
  | nil => exact Nat.le_refl 0
  | cons f args ih =>
      rw [written, texts_cons, List.length_append]
      split
      · rename_i text hkept
        obtain ⟨lost, htext, -⟩ := exists_kept hkept
        rw [htext, List.length_append, List.length_append]
        omega
      · exact Nat.zero_le _

/-- Of texts nothing is lost. -/
theorem written_of_texts (hargs : ∀ f ∈ args, f.isInteger = false) :
    written args = texts args := by
  induction args with
  | nil => rfl
  | cons f args ih =>
      obtain ⟨hf, hargs⟩ := List.forall_mem_cons.1 hargs
      have hkept : f.kept = some f.text := by
        cases f with
        | integer number => cases hf
        | cString str => rfl
        | subString str => rfl
        | string str => rfl
      rw [written, texts_cons, hkept, ih hargs]

/-! ## What is lost -/

/-- A text that begins what was put before it has no NUL from there on either. -/
theorem exists_shifted {before text behind : List UInt8} (hbefore : before ≠ [])
    (hnul : 0 ∉ before) (h : text <+: before ++ (text ++ behind)) :
    ∃ shifted, before ++ text = text ++ shifted ∧ shifted ≠ [] ∧ 0 ∉ shifted := by
  induction text generalizing before with
  | nil => exact ⟨before, List.append_nil _, hbefore, hnul⟩
  | cons ch text ih =>
      obtain ⟨x, before, rfl⟩ := List.exists_cons_of_ne_nil hbefore
      obtain ⟨hx, hrest⟩ := List.ne_and_not_mem_of_not_mem_cons hnul
      obtain ⟨rfl, h⟩ := List.cons_prefix_cons.1 h
      have hnul' : 0 ∉ before ++ [ch] := by
        rw [List.mem_append, not_or]
        exact ⟨hrest, List.not_mem_cons_of_ne_of_not_mem hx List.not_mem_nil⟩
      obtain ⟨shifted, heq, hne, hshifted⟩ := ih (by simp) hnul' (by simpa using h)
      refine ⟨shifted, ?_, hne, hshifted⟩
      rw [List.cons_append, List.cons_append, ← heq]
      simp

/-- A NUL is not the next character of a text without one. -/
theorem not_nul_prefix {text : List UInt8} (htext : text ≠ []) (hnul : 0 ∉ text)
    (behind : List UInt8) : ¬[0] <+: text ++ behind := by
  obtain ⟨x, text, rfl⟩ := List.exists_cons_of_ne_nil htext
  intro h
  exact hnul (List.mem_cons.2 (Or.inl (List.cons_prefix_cons.1 h).1))

-- Induction on the arguments: what has been lost so far is ahead of what is written, and it
-- stays without a NUL while the texts go through it.
theorem not_written_prefix_behind {lost : List UInt8} (hlost : lost ≠ []) (hnul : 0 ∉ lost)
    (args : List Arg) (behind : List UInt8) :
    ¬written args ++ [0] <+: lost ++ (texts args ++ behind) := by
  induction args generalizing lost with
  | nil => exact not_nul_prefix hlost hnul _
  | cons f args ih =>
      rw [written, texts_cons]
      split
      · rename_i text hkept
        obtain ⟨more, htext, hmore, -⟩ := exists_kept hkept
        intro h
        rw [htext] at h
        simp only [List.append_assoc] at h
        obtain ⟨shifted, heq, hne, hshifted⟩ := exists_shifted hlost hnul
          ((List.prefix_append text _).trans h)
        rw [← List.append_assoc lost, heq, List.append_assoc, List.prefix_append_right_inj,
          ← List.append_assoc shifted] at h
        refine ih (show shifted ++ more ≠ [] by simp [hne]) ?_ h
        rw [List.mem_append, not_or]
        exact ⟨hshifted, hmore⟩
      · exact not_nul_prefix hlost hnul _

/-- With an integer among the arguments, what is written is no part of their texts. -/
theorem not_written_prefix (hint : ∃ f ∈ args, f.isInteger = true) (behind : List UInt8) :
    ¬written args ++ [0] <+: texts args ++ behind := by
  induction args with
  | nil =>
      obtain ⟨f, hf, -⟩ := hint
      cases hf
  | cons f args ih =>
      rw [written, texts_cons, List.append_assoc]
      split
      · rename_i text hkept
        obtain ⟨lost, htext, hnul, hlost⟩ := exists_kept hkept
        rw [htext, List.append_assoc, List.append_assoc, List.prefix_append_right_inj]
        by_cases hf : f.isInteger = false
        · obtain rfl := hlost.2 hf
          obtain ⟨g, hg, hinteger⟩ := hint
          rcases List.mem_cons.1 hg with rfl | hg
          · rw [hinteger] at hf
            cases hf
          · exact ih ⟨g, hg, hinteger⟩
        · exact not_written_prefix_behind (mt hlost.1 hf) hnul args behind
      · rename_i hkept
        obtain ⟨number, rfl, -⟩ := integer_of_not_kept hkept
        exact not_nul_prefix (List.length_pos_iff.1 (textOf_pos _)) (textOf_noNul _) _

/-! ## `concat` -/

/-- `concat` leaves a NUL-terminated prefix of the texts, and all of them when there is room
to spare. -/
def Composes (args : List Arg) (buffer beyond : List UInt8) : Prop :=
  ∃ text, Leaves buffer beyond text args ∧ text <+: texts args ∧
    ((texts args).length + 24 ≤ buffer.length → text = texts args)

theorem composes_of_texts (hargs : ∀ f ∈ args, f.isInteger = false) {buffer : List UInt8}
    (hbuffer : buffer ≠ []) (beyond : List UInt8) : Composes args buffer beyond := by
  refine ⟨_, leaves_texts hargs hbuffer beyond, List.take_prefix _ _, ?_⟩
  intro hroom
  exact List.take_of_length_le (by omega)

theorem not_composes_of_integer (hint : ∃ f ∈ args, f.isInteger = true) {buffer : List UInt8}
    (hroom : (texts args).length + 24 ≤ buffer.length) (beyond : List UInt8) :
    ¬Composes args buffer beyond := by
  rintro ⟨text, ⟨rest, -, hconcat⟩, -, hwhole⟩
  obtain ⟨rest', -, hwritten⟩ := leaves_written hroom beyond
  rw [hwhole hroom, hwritten] at hconcat
  have heq : written args ++ 0 :: rest' ++ beyond = texts args ++ 0 :: rest ++ beyond :=
    Except.ok.inj (Option.some.inj hconcat)
  refine not_written_prefix hint (0 :: rest ++ beyond) ⟨rest' ++ beyond, ?_⟩
  simpa using heq

/-- `concat` keeps to the size of its buffer; what it composes there is right for every size
just when no argument is an integer, and with an integer it is wrong in every buffer that has
room to spare. -/
theorem concat_composes_iff (args : List Arg) :
    (∀ buffer beyond, buffer ≠ [] → ∃ text, Leaves buffer beyond text args) ∧
      ((∀ buffer beyond, buffer ≠ [] → Composes args buffer beyond) ↔
        ∀ f ∈ args, f.isInteger = false) ∧
      ∀ buffer beyond, (texts args).length + 24 ≤ buffer.length →
        (Composes args buffer beyond ↔ ∀ f ∈ args, f.isInteger = false) := by
  have hlarge : ∀ buffer beyond, (texts args).length + 24 ≤ buffer.length →
      (Composes args buffer beyond ↔ ∀ f ∈ args, f.isInteger = false) := by
    intro buffer beyond hroom
    constructor
    · intro h f hf
      by_contra hinteger
      exact not_composes_of_integer ⟨f, hf, by simpa using hinteger⟩ hroom beyond h
    · intro hargs
      exact composes_of_texts hargs (by rintro rfl; cases hroom) beyond
  refine ⟨fun buffer beyond hbuffer => exists_leaves hbuffer beyond args, ⟨fun h => ?_, ?_⟩,
    hlarge⟩
  · have hroom : (texts args).length + 24 ≤
        (List.replicate ((texts args).length + 24) (0 : UInt8)).length := by simp
    exact (hlarge _ [] hroom).1 (h _ [] (by simp [List.replicate_succ]))
  · intro hargs buffer beyond hbuffer
    exact composes_of_texts hargs hbuffer beyond

/-- The number 12 as an `int`. -/
def intTwelve : IntegerArg := ⟨IntegerType.int32, by decide, 12, by decide⟩

/-- The letter x as a C string. -/
def cStringX : CString := ⟨[120], by decide⟩

theorem textOf_intTwelve : textOf intTwelve.value = [49, 50] := by
  have hlow : lowFirst 12 = [50, 49] := by
    rw [lowFirst, if_neg (by decide), lowFirst, if_pos (by decide)]
    rfl
  show (if (12 : Int) < 0 then '-'.toUInt8 :: decimal 12 else decimal 12) = [49, 50]
  rw [if_neg (by decide), decimal, hlow]
  rfl

/-- `concat(buffer, 64, 12, "x")` leaves "1x". -/
theorem concat_intTwelve :
    Leaves (List.replicate 64 0) [] [49, 120] [.integer intTwelve, .cString cStringX] ∧
      ¬Composes [.integer intTwelve, .cString cStringX] (List.replicate 64 0) [] := by
  have htexts : texts [.integer intTwelve, .cString cStringX] = [49, 50, 120] := by
    simp [texts, Arg.text, textOf_intTwelve, cStringX]
  have hleast : ¬intTwelve.IsLeast := by decide
  have hwritten : written [.integer intTwelve, .cString cStringX] = [49, 120] := by
    simp [written, Arg.kept, hleast, textOf_intTwelve, Arg.text, cStringX]
  have hroom : (texts [.integer intTwelve, .cString cStringX]).length + 24 ≤
      (List.replicate 64 (0 : UInt8)).length := by
    rw [htexts]
    decide
  constructor
  · rw [← hwritten]
    exact leaves_written hroom []
  · exact not_composes_of_integer ⟨.integer intTwelve, List.mem_cons_self, rfl⟩ hroom []

end LiteMQ.Gears.StringManip
