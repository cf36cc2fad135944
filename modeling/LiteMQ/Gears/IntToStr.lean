import LiteMQ.Foundation.Memory
import LiteMQ.Gears.StrToInt
import Mathlib.Data.List.Induction

/-!
# `StringManip::int_to_str`

The digits are written with the last one first, and then turned round in the buffer.  The
sign of a negative number is written before, and its digits are those of the opposite
number.  There is none for the least number of a signed type, and `int_to_str` writes
nothing for it.  Any other number is read back (`intToStr_strToInt`).
-/

namespace LiteMQ.Gears.StringManip

open Decimal

/-- The digits in `IntToStrSign<Integer, false>::convert`, from `ptr` on: the buffer, and
`ptr` behind them. -/
def writeDigits (buf : List UInt8) (ptr value : Nat) : Except Fault (List UInt8 × Nat) := do
  let buf ← Buffer.store buf ptr (digitByte (value % 10))
  if value / 10 = 0 then .ok (buf, ptr + 1) else writeDigits buf (ptr + 1) (value / 10)
termination_by value
decreasing_by omega

/-- The loop that swaps `*str` and `*ptr`. -/
def reverseDigits (buf : List UInt8) (str ptr : Nat) : Except Fault (List UInt8) :=
  if str < ptr then do
    let first ← Buffer.load buf str
    let last ← Buffer.load buf ptr
    let buf ← Buffer.store buf str last
    let buf ← Buffer.store buf ptr first
    reverseDigits buf (str + 1) (ptr - 1)
  else .ok buf
termination_by ptr - str
decreasing_by omega

/-- `IntToStrSign<Integer, false>::convert`: the size, and the buffer. -/
def convertUnsigned (value : Nat) (buf : List UInt8) (str : Nat) :
    Except Fault (Nat × List UInt8) := do
  let (buf, ptr) ← writeDigits buf str value
  let size := ptr - str
  let buf ← Buffer.store buf ptr 0
  let buf ← reverseDigits buf str (ptr - 1)
  .ok (size, buf)

/-- `IntToStrSign<Integer, true>::convert`; `none` when an intermediate value overflows. -/
def convertSigned (T : IntegerType) (value : Int) (buf : List UInt8) (str : Nat) :
    Option (Except Fault (Nat × List UInt8)) := do
  let low ← T.checked (-T.max)
  if value < low then some (.ok (0, buf))
  else if value < 0 then do
    let opposite ← T.checked (-value)
    some do
      let buf ← Buffer.store buf str '-'.toUInt8
      let (size, buf) ← convertUnsigned opposite.toNat buf (str + 1)
      .ok (size + 1, buf)
  else some (convertUnsigned value.toNat buf str)

/-- `int_to_str` -/
def intToStr (T : IntegerType) (value : Int) (buf : List UInt8) (size : Nat) :
    Option (Except Fault (Nat × List UInt8)) :=
  if size < T.digits10 + 3 then some (.ok (0, buf))
  else if T.signed then convertSigned T value buf 0
  else some (convertUnsigned value.toNat buf 0)

/-! ## The loops -/

theorem writeDigits_eq (value : Nat) (before old behind : List UInt8)
    (hold : old.length = (lowFirst value).length) :
    writeDigits (before ++ old ++ behind) before.length value =
      .ok (before ++ lowFirst value ++ behind, before.length + (lowFirst value).length) := by
  induction value using Nat.strongRecOn generalizing before old with
  | ind value ih =>
      cases old with
      | nil =>
          rw [lowFirst] at hold
          cases hold
      | cons x old =>
          rw [lowFirst] at hold ⊢
          rw [writeDigits, List.append_assoc, List.cons_append, Buffer.store_append,
            Fault.ok_bind]
          split
          · rename_i hlast
            rw [if_pos hlast] at hold
            obtain rfl : old = [] := List.eq_nil_of_length_eq_zero (by simpa using hold)
            simp
          · rename_i hmore
            rw [if_neg hmore] at hold
            have hrest := ih (value / 10) (by omega) (before ++ [digitByte (value % 10)]) old
              (by simpa using hold)
            rw [List.length_append, List.length_singleton] at hrest
            have hassoc : before ++ digitByte (value % 10) :: (old ++ behind) =
                before ++ [digitByte (value % 10)] ++ old ++ behind := by simp
            rw [hassoc, hrest, List.length_cons, Nat.add_assoc, Nat.add_comm 1]
            simp

theorem reverseDigits_eq (before digits behind : List UInt8) :
    reverseDigits (before ++ digits ++ behind) before.length (before.length + digits.length - 1) =
      .ok (before ++ digits.reverse ++ behind) := by
  induction digits using List.bidirectionalRec generalizing before behind with
  | nil =>
      rw [reverseDigits, if_neg (by simp)]
      simp
  | singleton x =>
      rw [reverseDigits, if_neg (by simp)]
      simp
  | cons_append x digits y ih =>
      have hptr : before.length + (x :: (digits ++ [y])).length - 1 =
          (before ++ x :: digits).length := by simp
      have hptr' : (before ++ x :: digits).length = (before ++ y :: digits).length := by simp
      have hlast (c : UInt8) : before ++ c :: (digits ++ y :: behind) =
          before ++ c :: digits ++ y :: behind := by simp
      -- the two ends are exchanged, and the rest is reversed between them
      rw [reverseDigits, if_pos (by simp), hptr, List.append_assoc, List.cons_append,
        List.append_assoc, List.singleton_append, Buffer.load_append, Fault.ok_bind, hlast x,
        Buffer.load_append, Fault.ok_bind, ← hlast x, Buffer.store_append, Fault.ok_bind, hptr',
        hlast y, Buffer.store_append, Fault.ok_bind]
      have hrest := ih (before ++ [y]) (x :: behind)
      have hnext : (before ++ y :: digits).length - 1 =
          (before ++ [y]).length + digits.length - 1 := by simp
      have hbuf : before ++ y :: digits ++ x :: behind =
          before ++ [y] ++ digits ++ x :: behind := by simp
      rw [List.length_append, List.length_singleton] at hrest
      rw [hnext, hbuf, List.length_append, List.length_singleton, hrest]
      simp

/-- The digits of the number and a zero go where there is room for them. -/
theorem convertUnsigned_eq (value : Nat) (before old : List UInt8) (x : UInt8)
    (behind : List UInt8) (hold : old.length = (decimal value).length) :
    convertUnsigned value (before ++ old ++ x :: behind) before.length =
      .ok ((decimal value).length, before ++ decimal value ++ 0 :: behind) := by
  have hlength : (decimal value).length = (lowFirst value).length := List.length_reverse
  have hptr : before.length + (lowFirst value).length = (before ++ lowFirst value).length := by
    rw [List.length_append]
  have hreverse := reverseDigits_eq before (lowFirst value) (0 :: behind)
  rw [convertUnsigned, writeDigits_eq value before old (x :: behind) (hold.trans hlength),
    Fault.ok_bind]
  simp only
  rw [hptr, Buffer.store_append, Fault.ok_bind, ← hptr, hreverse, Fault.ok_bind, hlength,
    Nat.add_sub_cancel_left]
  rfl

/-- A buffer that is long enough, cut behind `k` elements. -/
theorem exists_split {buf : List UInt8} {k : Nat} (hk : k + 1 ≤ buf.length) :
    ∃ old x, old.length = k ∧ old ++ x :: buf.drop (k + 1) = buf := by
  refine ⟨buf.take k, buf[k], by simp; omega, ?_⟩
  rw [← List.drop_eq_getElem_cons, List.take_append_drop]

/-! ## What is written -/

/-- What `int_to_str` writes. -/
def textOf (value : Int) : List UInt8 :=
  if value < 0 then '-'.toUInt8 :: decimal value.natAbs else decimal value.natAbs

theorem numeral_textOf {T : IntegerType} {value : Int} (hfits : T.Fits value) :
    Numeral T.signed (textOf value) value := by
  have hnumber := numberOf_decimal value.natAbs
  have hdigits := decimal_isDigits value.natAbs
  unfold textOf
  split
  · rename_i hneg
    have hsigned : T.signed = true := by
      by_contra hunsigned
      have hmin := hfits.1
      rw [IntegerType.min, if_neg hunsigned] at hmin
      omega
    have h := Numeral.minus hsigned hdigits
    rwa [hnumber, show -(value.natAbs : Int) = value by omega] at h
  · have h : Numeral T.signed _ _ := .digits hdigits
    rwa [hnumber, show (value.natAbs : Int) = value by omega] at h

theorem length_textOf_le {T : IntegerType} {value : Int} (hlow : -T.max ≤ value)
    (hhigh : value ≤ T.max) : (textOf value).length + 1 ≤ T.digits10 + 3 := by
  have hpow := T.max_lt_pow
  have hlt : value.natAbs < 10 ^ (T.digits10 + 1) := by omega
  have hle := length_decimal_le hlt
  unfold textOf
  split
  · rw [List.length_cons]
    omega
  · omega

theorem textOf_pos (value : Int) : 0 < (textOf value).length := by
  unfold textOf
  split
  · exact Nat.zero_lt_succ _
  · exact List.length_pos_iff.mpr (decimal_isDigits _).nonempty

theorem textOf_of_nonneg {value : Int} (h : 0 ≤ value) :
    textOf value = decimal value.toNat := by
  rw [textOf, if_neg (by omega), show value.natAbs = value.toNat by omega]

theorem textOf_of_neg {value : Int} (h : value < 0) :
    textOf value = '-'.toUInt8 :: decimal (-value).toNat := by
  rw [textOf, if_pos h, show value.natAbs = (-value).toNat by omega]

section

variable {value : Int} {buf : List UInt8}

theorem convertUnsigned_text (h : 0 ≤ value) (hbuf : (textOf value).length + 1 ≤ buf.length) :
    convertUnsigned value.toNat buf 0 =
      .ok ((textOf value).length,
        textOf value ++ 0 :: buf.drop ((textOf value).length + 1)) := by
  obtain ⟨old, x, hold, hsplit⟩ := exists_split hbuf
  rw [textOf_of_nonneg h] at hold hsplit ⊢
  have hconvert := convertUnsigned_eq value.toNat [] old x
    (buf.drop ((decimal value.toNat).length + 1)) hold
  rwa [List.nil_append, List.nil_append, hsplit] at hconvert

/-- The sign, and the digits behind it. -/
theorem convertSigned_digits (n : Nat) (c : UInt8) (old : List UInt8) (x : UInt8)
    (behind : List UInt8) (hold : old.length = (decimal n).length) :
    (do
      let buf ← Buffer.store (c :: old ++ x :: behind) 0 '-'.toUInt8
      let (size, buf) ← convertUnsigned n buf (0 + 1)
      .ok (size + 1, buf)) =
      .ok (('-'.toUInt8 :: decimal n).length, '-'.toUInt8 :: decimal n ++ 0 :: behind) := by
  have hstore : Buffer.store (c :: old ++ x :: behind) 0 '-'.toUInt8 =
      .ok (['-'.toUInt8] ++ old ++ x :: behind) := by simp [Buffer.store]
  have hconvert : convertUnsigned n (['-'.toUInt8] ++ old ++ x :: behind) (0 + 1) =
      .ok ((decimal n).length, ['-'.toUInt8] ++ decimal n ++ 0 :: behind) :=
    convertUnsigned_eq n ['-'.toUInt8] old x behind hold
  rw [hstore, Fault.ok_bind, hconvert, Fault.ok_bind]
  rfl

theorem convertSigned_text {T : IntegerType} (hlow : -T.max ≤ value) (hhigh : value ≤ T.max)
    (hmin : T.min ≤ -T.max) (hbuf : (textOf value).length + 1 ≤ buf.length) :
    convertSigned T value buf 0 =
      some (.ok ((textOf value).length,
        textOf value ++ 0 :: buf.drop ((textOf value).length + 1))) := by
  have hmax := T.max_ge
  have hlow_fits : T.Fits (-T.max) := ⟨hmin, by omega⟩
  simp only [convertSigned, IntegerType.checked_of_fits hlow_fits, Option.bind_eq_bind,
    Option.bind_some]
  rw [if_neg (by omega)]
  by_cases hneg : value < 0
  · -- the guard has left out the one number without an opposite
    have hopposite : T.Fits (-value) := ⟨by omega, by omega⟩
    rw [if_pos hneg, IntegerType.checked_of_fits hopposite, Option.bind_some]
    obtain ⟨old, x, hold, hsplit⟩ := exists_split hbuf
    rw [textOf_of_neg hneg] at hold hsplit ⊢
    cases old with
    | nil => cases hold
    | cons c old =>
        have hdigits := convertSigned_digits (-value).toNat c old x
          (buf.drop (('-'.toUInt8 :: decimal (-value).toNat).length + 1)) (Nat.succ.inj hold)
        rw [hsplit] at hdigits
        exact congrArg some hdigits
  · rw [if_neg hneg, convertUnsigned_text (by omega) hbuf]

end

/-- `int_to_str` writes the text of a number, but for the least one of a signed type. -/
theorem intToStr_eq {T : IntegerType} {value : Int} (hfits : T.Fits value)
    (hlow : -T.max ≤ value) {buf : List UInt8} {size : Nat} (hsize : T.digits10 + 3 ≤ size)
    (hbuf : size ≤ buf.length) :
    intToStr T value buf size =
      some (.ok ((textOf value).length,
        textOf value ++ 0 :: buf.drop ((textOf value).length + 1))) := by
  have hlength := length_textOf_le hlow hfits.2
  rw [intToStr, if_neg (by omega)]
  split
  · rename_i hsigned
    have hmin := IntegerType.min_of_signed T hsigned
    exact convertSigned_text hlow hfits.2 (by omega) (by omega)
  · rename_i hunsigned
    have hnonneg := hfits.1
    rw [IntegerType.min, if_neg hunsigned] at hnonneg
    rw [convertUnsigned_text hnonneg (by omega)]

/-- For the least number of a signed type nothing is written. -/
theorem intToStr_min {T : IntegerType} (hsigned : T.signed = true) (buf : List UInt8)
    (size : Nat) : intToStr T T.min buf size = some (.ok (0, buf)) := by
  have hmin := IntegerType.min_of_signed T hsigned
  have hmax := T.max_ge
  have hlow : T.Fits (-T.max) := ⟨by omega, by omega⟩
  rw [intToStr, convertSigned, if_pos hsigned, IntegerType.checked_of_fits hlow]
  split
  · rfl
  · simp only [Option.bind_eq_bind, Option.bind_some]
    rw [if_pos (by omega)]

/-- The opposite number of any but the least one is in range. -/
theorem neg_max_le {T : IntegerType} {value : Int} (hfits : T.Fits value)
    (hnot : ¬(T.signed = true ∧ value = T.min)) : -T.max ≤ value := by
  have hmin := hfits.1
  have hmax := T.max_ge
  by_cases hsigned : T.signed = true
  · have hne : value ≠ T.min := fun heq => hnot ⟨hsigned, heq⟩
    have hmin_eq := IntegerType.min_of_signed T hsigned
    omega
  · rw [IntegerType.min, if_neg hsigned] at hmin
    omega

/-- A number is read back from what `int_to_str` has written, unless it is the least one of
a signed type; for that, `int_to_str` returns 0 and leaves the buffer as it is. -/
theorem intToStr_strToInt {T : IntegerType} {value : Int} (hfits : T.Fits value)
    {buf : List UInt8} {size : Nat} (hsize : T.digits10 + 3 ≤ size) (hbuf : size ≤ buf.length) :
    (T.signed = true ∧ value = T.min → intToStr T value buf size = some (.ok (0, buf))) ∧
      (¬(T.signed = true ∧ value = T.min) →
        ∃ text, 0 < text.length ∧ text.length + 1 ≤ T.digits10 + 3 ∧
          intToStr T value buf size =
            some (.ok (text.length, text ++ 0 :: buf.drop (text.length + 1))) ∧
          ∀ old, strToInt T text old = some (true, value)) := by
  constructor
  · rintro ⟨hsigned, rfl⟩
    exact intToStr_min hsigned buf size
  · intro hnot
    have hlow := neg_max_le hfits hnot
    exact ⟨textOf value, textOf_pos value, length_textOf_le hlow hfits.2,
      intToStr_eq hfits hlow hsize hbuf,
      fun old => (strToInt_eq_true _ old value).mpr ⟨numeral_textOf hfits, hfits⟩⟩

/-- `int8_t`, for which 5 characters are enough. -/
def int8 : IntegerType := ⟨true, 8, Nat.le_refl 8⟩

theorem digits10_int8 : int8.digits10 = 2 := by
  show Nat.log 10 128 = 2
  exact Nat.log_eq_of_pow_le_of_lt_pow (by decide) (by decide)

/-- The least number but one. -/
theorem intToStr_strToInt_int8 :
    ∃ text, 0 < text.length ∧ text.length + 1 ≤ int8.digits10 + 3 ∧
      intToStr int8 (-127) [0, 0, 0, 0, 0] 5 =
        some (.ok (text.length, text ++ 0 :: [0, 0, 0, 0, 0].drop (text.length + 1))) ∧
      ∀ old, strToInt int8 text old = some (true, -127) :=
  (intToStr_strToInt (T := int8) (show int8.Fits (-127) by decide) (by rw [digits10_int8])
    (Nat.le_refl 5)).2 (by decide)

/-- The least number is not written. -/
theorem intToStr_int8_min :
    int8.Fits (-128) ∧ int8.digits10 + 3 ≤ 5 ∧
      intToStr int8 (-128) [0, 0, 0, 0, 0] 5 = some (.ok (0, [0, 0, 0, 0, 0])) := by
  refine ⟨by decide, by rw [digits10_int8], ?_⟩
  rw [intToStr, if_neg (by rw [digits10_int8]; decide)]
  decide

end LiteMQ.Gears.StringManip
