import LiteMQ.Foundation.Memory
import Mathlib.Algebra.Ring.Nat
import Mathlib.Data.List.GetD

/-!
# `StringManip::hex_encode` and `StringManip::hex_decode`

A byte is written as two digits, and decoding undoes it, also where leading zeroes were
left out (`hexDecode_hexEncode`).

The decoder computes with whatever characters it finds.  It does what it says exactly on
the strings of hexadecimal digits (`hexDecode_accepts_iff`): from other strings it makes
bytes as well, and does not throw.
-/

namespace LiteMQ.Gears.StringManip

/-- `HEX_UP_DIGITS` -/
def hexUpDigits : List UInt8 := "0123456789ABCDEF".toList.map Char.toUInt8

/-- `HEX_LOW_DIGITS` -/
def hexLowDigits : List UInt8 := "0123456789abcdef".toList.map Char.toUInt8

/-! ## Encoding -/

/-- The loop over leading zeroes: the rest of the data with its size, or `none` when there
were zeroes only. -/
def skipZeroes : (data : List UInt8) → (size : Nat) → Except Fault (Option (List UInt8 × Nat))
  | [], _ => .error .outOfBounds
  | c :: data, size =>
      if c ≠ 0 then .ok (some (c :: data, size))
      else if size - 1 = 0 then .ok none
      else skipZeroes data (size - 1)

/-- The loop over the bytes. -/
def encodeLoop (hexDigits : List UInt8) : (data : List UInt8) → (size : Nat) →
    Except Fault (List UInt8)
  | _, 0 => .ok []
  | [], _ + 1 => .error .outOfBounds
  | c :: data, size + 1 => do
      let major ← Buffer.load hexDigits (c >>> 4).toNat
      let minor ← Buffer.load hexDigits (c &&& 0xF).toNat
      let rest ← encodeLoop hexDigits data size
      .ok (major :: minor :: rest)

/-- `hex_encode_ex` behind the leading zeroes. -/
def encodeFirst (hexDigits : List UInt8) (skipLeadingZeroes : Bool) :
    (data : List UInt8) → (size : Nat) → Except Fault (List UInt8)
  | [], _ => .error .outOfBounds
  | c :: data, size =>
      if skipLeadingZeroes = true ∧ c &&& 0xF0 = 0 then do
        let minor ← Buffer.load hexDigits c.toNat
        let rest ← encodeLoop hexDigits data (size - 1)
        .ok (minor :: rest)
      else encodeLoop hexDigits (c :: data) size

/-- `hex_encode_ex` -/
def hexEncodeEx (data : List UInt8) (size : Nat) (skipLeadingZeroes : Bool)
    (hexDigits : List UInt8) : Except Fault (List UInt8) :=
  if size = 0 then .ok []
  else if skipLeadingZeroes = true then do
    match ← skipZeroes data size with
    | none => .ok ['0'.toUInt8]
    | some (data, size) => encodeFirst hexDigits skipLeadingZeroes data size
  else encodeFirst hexDigits skipLeadingZeroes data size

/-- `hex_encode` -/
def hexEncode (data : List UInt8) (size : Nat) (skipLeadingZeroes : Bool) :
    Except Fault (List UInt8) :=
  hexEncodeEx data size skipLeadingZeroes hexUpDigits

/-- `hex_low_encode` -/
def hexLowEncode (data : List UInt8) (size : Nat) (skipLeadingZeroes : Bool) :
    Except Fault (List UInt8) :=
  hexEncodeEx data size skipLeadingZeroes hexLowDigits

/-! ## Decoding -/

/-- A `char`, which is signed. -/
def signedChar (ch : UInt8) : Int := if ch.toNat < 128 then ch.toNat else ch.toNat - 256

/-- `hex_to_int` -/
def hexToInt (ch : UInt8) : UInt8 :=
  if signedChar ch ≤ signedChar '9'.toUInt8 then ch - '0'.toUInt8 else (ch &&& 0x0F) + 9

/-- `hex_to_char` -/
def hexToChar (major minor : UInt8) : UInt8 :=
  UInt8.ofNat ((hexToInt major).toNat <<< 4 ||| (hexToInt minor).toNat)

/-- The loop of `hex_decode`, which writes from `data` on. -/
def decodeLoop : (src dst : List UInt8) → (data : Nat) → Except Fault (List UInt8)
  | [], dst, _ => .ok dst
  | [_], _, _ => .error .outOfBounds
  | major :: minor :: src, dst, data => do
      let dst ← Buffer.store dst data (hexToChar major minor)
      decodeLoop src dst (data + 1)

/-- `hex_decode`: the exception, or the length and the destination. -/
def hexDecode (dst src : List UInt8) (allowOddString : Bool) :
    Except Fault (Except String (Nat × List UInt8)) :=
  let size := (src.length + 1) / 2
  let dst := Buffer.resize dst size 0
  if src.length % 2 = 1 then
    if allowOddString = false then
      .ok (.error "StringManip::hex_decode(): odd length of hex string")
    else do
      let ch ← Buffer.load src 0
      let dst ← Buffer.store dst 0 (hexToInt ch)
      let dst ← decodeLoop (src.drop 1) dst 1
      .ok (.ok (size, dst))
  else do
    let dst ← decodeLoop src dst 0
    .ok (.ok (size, dst))

/-! ## What the loops do -/

/-- The digits of the bytes. -/
def encodeBytes (hexDigits : List UInt8) : List UInt8 → List UInt8
  | [] => []
  | c :: data =>
      hexDigits.getD (c.toNat / 16) 0 :: hexDigits.getD (c.toNat % 16) 0 ::
        encodeBytes hexDigits data

/-- The bytes of pairs of digits. -/
def decodeBytes : List UInt8 → List UInt8
  | [] => []
  | [_] => []
  | major :: minor :: src => hexToChar major minor :: decodeBytes src

theorem shiftRight_four (c : UInt8) : (c >>> 4).toNat = c.toNat / 16 := by
  rw [UInt8.toNat_shiftRight]
  exact Nat.shiftRight_eq_div_pow _ 4

theorem and_fifteen (c : UInt8) : (c &&& 0xF).toNat = c.toNat % 16 := by
  rw [UInt8.toNat_and]
  exact Nat.and_two_pow_sub_one_eq_mod _ 4

theorem encodeLoop_eq {hexDigits : List UInt8} (hdigits : hexDigits.length = 16)
    (data : List UInt8) :
    encodeLoop hexDigits data data.length = .ok (encodeBytes hexDigits data) := by
  induction data with
  | nil => rfl
  | cons c data ih =>
      have hc := c.toNat_lt
      rw [List.length_cons, encodeLoop, shiftRight_four, and_fifteen,
        Buffer.load_eq_ok (by omega), Fault.ok_bind, Buffer.load_eq_ok (by omega), Fault.ok_bind,
        ih, Fault.ok_bind, encodeBytes, List.getD_eq_getElem, List.getD_eq_getElem]

theorem decodeLoop_eq {src old : List UInt8} (hold : src.length = 2 * old.length)
    (before : List UInt8) :
    decodeLoop src (before ++ old) before.length = .ok (before ++ decodeBytes src) := by
  induction src using decodeBytes.induct generalizing before old with
  | case1 =>
      obtain rfl : old = [] := List.eq_nil_of_length_eq_zero (by simpa using hold.symm)
      rfl
  | case2 c =>
      rw [List.length_singleton] at hold
      omega
  | case3 major minor src ih =>
      cases old with
      | nil => cases hold
      | cons x old =>
          rw [List.length_cons, List.length_cons, List.length_cons] at hold
          rw [decodeLoop, Buffer.store_append, Fault.ok_bind, decodeBytes]
          have hshort : src.length = 2 * old.length := by omega
          have hrest := ih hshort (before ++ [hexToChar major minor])
          rw [List.length_append, List.length_singleton] at hrest
          simpa using hrest

theorem length_decodeBytes (src : List UInt8) : (decodeBytes src).length = src.length / 2 := by
  induction src using decodeBytes.induct with
  | case1 => rfl
  | case2 c => simp [decodeBytes]
  | case3 major minor src ih =>
      rw [decodeBytes, List.length_cons, ih, List.length_cons, List.length_cons]
      omega

/-- Strings of even length are never refused. -/
theorem hexDecode_even {src : List UInt8} (heven : src.length % 2 = 0) (dst : List UInt8)
    (allowOddString : Bool) :
    hexDecode dst src allowOddString = .ok (.ok ((decodeBytes src).length, decodeBytes src)) := by
  have hsize : (src.length + 1) / 2 = src.length / 2 := by omega
  have hlength : src.length = 2 * (Buffer.resize dst (src.length / 2) 0).length := by
    rw [Buffer.length_resize]
    omega
  have hloop : decodeLoop src (Buffer.resize dst (src.length / 2) 0) 0 = .ok (decodeBytes src) :=
    decodeLoop_eq hlength []
  rw [hexDecode, hsize, if_neg (by omega), hloop, Fault.ok_bind, length_decodeBytes]

theorem hexDecode_odd {src : List UInt8} (heven : src.length % 2 = 0) (c : UInt8)
    (dst : List UInt8) :
    hexDecode dst (c :: src) true =
      .ok (.ok ((decodeBytes src).length + 1, hexToInt c :: decodeBytes src)) := by
  have hsize : ((c :: src).length + 1) / 2 = src.length / 2 + 1 := by
    rw [List.length_cons]
    omega
  have hresize : (Buffer.resize dst (src.length / 2 + 1) 0).length = src.length / 2 + 1 :=
    Buffer.length_resize _ _ _
  cases hdst : Buffer.resize dst (src.length / 2 + 1) 0 with
  | nil =>
      rw [hdst] at hresize
      cases hresize
  | cons x old =>
      rw [hdst, List.length_cons] at hresize
      have hlength : src.length = 2 * old.length := by omega
      have hloop : decodeLoop src (hexToInt c :: old) 1 = .ok (hexToInt c :: decodeBytes src) :=
        decodeLoop_eq hlength [hexToInt c]
      have hstore : Buffer.store (x :: old) 0 (hexToInt c) = .ok (hexToInt c :: old) :=
        Buffer.store_append [] x (hexToInt c) old
      rw [hexDecode, hsize, hdst, if_pos (by rw [List.length_cons]; omega), if_neg (by decide),
        Buffer.load_cons, Fault.ok_bind, hstore, Fault.ok_bind, List.drop_one, List.tail_cons, hloop,
        Fault.ok_bind, length_decodeBytes]

/-! ## Decoding what was encoded -/

/-- The digits of one letter case. -/
structure HexTable (hexDigits : List UInt8) : Prop where
  length : hexDigits.length = 16
  value : ∀ n < 16, hexToInt (hexDigits.getD n 0) = UInt8.ofNat n

theorem hexTable_up : HexTable hexUpDigits := ⟨by decide, by decide⟩

theorem hexTable_low : HexTable hexLowDigits := ⟨by decide, by decide⟩

theorem nibbles : ∀ n < 16, ∀ m < 16, n <<< 4 ||| m = n * 16 + m := by decide

theorem and_highNibble (c : UInt8) : c &&& 0xF0 = 0 ↔ c.toNat < 16 := by
  have hall : ∀ n < 256, (UInt8.ofNat n &&& 0xF0 = 0 ↔ n < 16) := by decide +kernel
  have hc := hall c.toNat c.toNat_lt
  rwa [UInt8.ofNat_toNat] at hc

section

variable {hexDigits : List UInt8} (h : HexTable hexDigits)

include h

theorem hexToChar_digits (c : UInt8) :
    hexToChar (hexDigits.getD (c.toNat / 16) 0) (hexDigits.getD (c.toNat % 16) 0) = c := by
  have hc := c.toNat_lt
  have hmajor : c.toNat / 16 < 16 := by omega
  have hminor : c.toNat % 16 < 16 := by omega
  rw [hexToChar, h.value _ hmajor, h.value _ hminor, UInt8.toNat_ofNat', UInt8.toNat_ofNat',
    Nat.mod_eq_of_lt (by omega), Nat.mod_eq_of_lt (by omega), nibbles _ hmajor _ hminor,
    Nat.div_add_mod']
  exact UInt8.ofNat_toNat

theorem decodeBytes_encodeBytes (data : List UInt8) :
    decodeBytes (encodeBytes hexDigits data) = data := by
  induction data with
  | nil => rfl
  | cons c data ih => rw [encodeBytes, decodeBytes, hexToChar_digits h, ih]

end

theorem length_encodeBytes (hexDigits data : List UInt8) :
    (encodeBytes hexDigits data).length = 2 * data.length := by
  induction data with
  | nil => rfl
  | cons c data ih =>
      rw [encodeBytes, List.length_cons, List.length_cons, ih, List.length_cons]
      omega

theorem even_encodeBytes (hexDigits data : List UInt8) :
    (encodeBytes hexDigits data).length % 2 = 0 := by
  rw [length_encodeBytes]
  exact Nat.mul_mod_right _ _

theorem skipZeroes_eq {data : List UInt8} (hne : data ≠ []) :
    skipZeroes data data.length =
      .ok (if data.dropWhile (· == 0) = [] then none
        else some (data.dropWhile (· == 0), (data.dropWhile (· == 0)).length)) := by
  induction data with
  | nil => exact absurd rfl hne
  | cons c data ih =>
      rw [skipZeroes]
      by_cases hc : c = 0
      · rw [if_neg (by simpa using hc), List.dropWhile_cons_of_pos (by simpa using hc)]
        by_cases hlast : data = []
        · rw [hlast]
          rfl
        · have hpos : 0 < data.length := List.length_pos_iff.mpr hlast
          rw [List.length_cons, Nat.add_sub_cancel, if_neg (by omega), ih hlast]
      · rw [if_pos hc, List.dropWhile_cons_of_neg (by simpa using hc),
          if_neg (List.cons_ne_nil _ _)]

/-- The bytes without leading zero bytes; of zero bytes only, one stays. -/
def withoutZeroes (data : List UInt8) : List UInt8 :=
  if data ≠ [] ∧ data.dropWhile (· == 0) = [] then [0] else data.dropWhile (· == 0)

theorem hexEncodeEx_all {hexDigits : List UInt8} (h : HexTable hexDigits) (data : List UInt8) :
    hexEncodeEx data data.length false hexDigits = .ok (encodeBytes hexDigits data) := by
  cases data with
  | nil => rfl
  | cons c data =>
      rw [hexEncodeEx, if_neg (by simp), if_neg (by decide), encodeFirst, if_neg (by simp),
        encodeLoop_eq h.length]

/-- The first byte is written with one digit when that is enough. -/
theorem encodeFirst_decode {hexDigits : List UInt8} (h : HexTable hexDigits) {data : List UInt8}
    (hne : data ≠ []) (dst : List UInt8) :
    ∃ s, encodeFirst hexDigits true data data.length = .ok s ∧
      hexDecode dst s true = .ok (.ok (data.length, data)) := by
  cases data with
  | nil => exact absurd rfl hne
  | cons c data =>
      rw [encodeFirst]
      by_cases hc : c &&& 0xF0 = 0
      · -- one digit, so that the string is of odd length
        have hsmall := (and_highNibble c).mp hc
        have hlength : c.toNat < hexDigits.length := by
          rw [h.length]
          exact hsmall
        refine ⟨hexDigits.getD c.toNat 0 :: encodeBytes hexDigits data, ?_, ?_⟩
        · rw [if_pos ⟨rfl, hc⟩, Buffer.load_eq_ok hlength, Fault.ok_bind, List.length_cons,
            Nat.add_sub_cancel, encodeLoop_eq h.length, Fault.ok_bind, List.getD_eq_getElem]
        · rw [hexDecode_odd (even_encodeBytes _ _), decodeBytes_encodeBytes h, h.value _ hsmall,
            UInt8.ofNat_toNat]
          rfl
      · refine ⟨encodeBytes hexDigits (c :: data), ?_, ?_⟩
        · rw [if_neg (by simpa using hc), encodeLoop_eq h.length]
        · rw [hexDecode_even (even_encodeBytes _ _), decodeBytes_encodeBytes h]

theorem hexEncodeEx_skip {hexDigits : List UInt8} (h : HexTable hexDigits)
    (data dst : List UInt8) :
    ∃ s, hexEncodeEx data data.length true hexDigits = .ok s ∧
      hexDecode dst s true = .ok (.ok ((withoutZeroes data).length, withoutZeroes data)) := by
  by_cases hne : data = []
  · subst hne
    exact ⟨[], rfl, hexDecode_even rfl dst true⟩
  · have hsize : data.length ≠ 0 := fun hzero => hne (List.eq_nil_of_length_eq_zero hzero)
    rw [hexEncodeEx, if_neg hsize, if_pos rfl, skipZeroes_eq hne, Fault.ok_bind, withoutZeroes]
    by_cases hzeroes : data.dropWhile (· == 0) = []
    · -- the digit 0 alone, which is the byte 0
      rw [if_pos hzeroes, if_pos ⟨hne, hzeroes⟩]
      exact ⟨['0'.toUInt8], rfl, hexDecode_odd rfl '0'.toUInt8 dst⟩
    · rw [if_neg hzeroes, if_neg (fun hboth => hzeroes hboth.2)]
      exact encodeFirst_decode h hzeroes dst

/-- Decoding gives back the bytes that were encoded, in both letter cases; without the
leading zero bytes where they were skipped. -/
theorem hexDecode_hexEncode (data dst : List UInt8) :
    (∃ s, hexEncode data data.length false = .ok s ∧
        hexDecode dst s false = .ok (.ok (data.length, data))) ∧
      (∃ s, hexLowEncode data data.length false = .ok s ∧
        hexDecode dst s false = .ok (.ok (data.length, data))) ∧
      ∃ s, hexEncode data data.length true = .ok s ∧
        hexDecode dst s true = .ok (.ok ((withoutZeroes data).length, withoutZeroes data)) := by
  have hdecode {hexDigits : List UInt8} (h : HexTable hexDigits) :
      hexDecode dst (encodeBytes hexDigits data) false = .ok (.ok (data.length, data)) := by
    rw [hexDecode_even (even_encodeBytes _ _), decodeBytes_encodeBytes h]
  exact ⟨⟨_, hexEncodeEx_all hexTable_up data, hdecode hexTable_up⟩,
    ⟨_, hexEncodeEx_all hexTable_low data, hdecode hexTable_low⟩,
    hexEncodeEx_skip hexTable_up data dst⟩

/-! ## What is decoded -/

/-- `0` to `9`, `A` to `F` and `a` to `f`. -/
def IsHexDigit (c : UInt8) : Prop :=
  48 ≤ c.toNat ∧ c.toNat ≤ 57 ∨ 65 ≤ c.toNat ∧ c.toNat ≤ 70 ∨ 97 ≤ c.toNat ∧ c.toNat ≤ 102

instance (c : UInt8) : Decidable (IsHexDigit c) := inferInstanceAs (Decidable (_ ∨ _))

/-- Letters in upper case. -/
def toUpper (c : UInt8) : UInt8 := if 97 ≤ c.toNat ∧ c.toNat ≤ 122 then c - 32 else c

/-- `hex_decode` throws, or gives bytes that encode to the string in upper case. -/
def DecodesHex (dst src : List UInt8) : Prop :=
  (∃ e, hexDecode dst src false = .ok (.error e)) ∨
    ∃ size data, hexDecode dst src false = .ok (.ok (size, data)) ∧
      hexEncode data data.length false = .ok (src.map toUpper)

/-- The characters that `hex_to_int` maps to a digit of the same name are the digits. -/
theorem hexToInt_spec (c : UInt8) :
    (IsHexDigit c → (hexToInt c).toNat < 16 ∧
        hexUpDigits.getD (hexToInt c).toNat 0 = toUpper c) ∧
      ((∃ n < 16, hexUpDigits.getD n 0 = toUpper c) → IsHexDigit c) := by
  have hall : ∀ n < 256,
      (IsHexDigit (UInt8.ofNat n) → (hexToInt (UInt8.ofNat n)).toNat < 16 ∧
          hexUpDigits.getD (hexToInt (UInt8.ofNat n)).toNat 0 = toUpper (UInt8.ofNat n)) ∧
        ((∃ m < 16, hexUpDigits.getD m 0 = toUpper (UInt8.ofNat n)) →
          IsHexDigit (UInt8.ofNat n)) := by
    decide +kernel
  have hc := hall c.toNat c.toNat_lt
  rwa [UInt8.ofNat_toNat] at hc

theorem hexToChar_toNat {major minor : UInt8} (hmajor : (hexToInt major).toNat < 16)
    (hminor : (hexToInt minor).toNat < 16) :
    (hexToChar major minor).toNat / 16 = (hexToInt major).toNat ∧
      (hexToChar major minor).toNat % 16 = (hexToInt minor).toNat := by
  rw [hexToChar, nibbles _ hmajor _ hminor, UInt8.toNat_ofNat', Nat.mod_eq_of_lt (by omega)]
  omega

theorem encodeBytes_decodeBytes {src : List UInt8} (heven : src.length % 2 = 0) :
    encodeBytes hexUpDigits (decodeBytes src) = src.map toUpper ↔ ∀ c ∈ src, IsHexDigit c := by
  induction src using decodeBytes.induct with
  | case1 => simp [decodeBytes, encodeBytes]
  | case2 c =>
      rw [List.length_singleton] at heven
      omega
  | case3 major minor src ih =>
      have hrest := ih (by
        rw [List.length_cons, List.length_cons] at heven
        omega)
      have hbyte := (hexToChar major minor).toNat_lt
      rw [decodeBytes, encodeBytes, List.map_cons, List.map_cons, List.forall_mem_cons,
        List.forall_mem_cons, List.cons.injEq, List.cons.injEq, hrest]
      constructor
      · rintro ⟨hfirst, hsecond, hothers⟩
        exact ⟨(hexToInt_spec major).2 ⟨_, by omega, hfirst⟩,
          (hexToInt_spec minor).2 ⟨_, by omega, hsecond⟩, hothers⟩
      · rintro ⟨hfirst, hsecond, hothers⟩
        obtain ⟨hmajor, hupper⟩ := (hexToInt_spec major).1 hfirst
        obtain ⟨hminor, hupper'⟩ := (hexToInt_spec minor).1 hsecond
        obtain ⟨hdiv, hmod⟩ := hexToChar_toNat hmajor hminor
        rw [hdiv, hmod]
        exact ⟨hupper, hupper', hothers⟩

theorem decodesHex_iff {src : List UInt8} (heven : src.length % 2 = 0) (dst : List UInt8) :
    DecodesHex dst src ↔ ∀ c ∈ src, IsHexDigit c := by
  have hdecode := hexDecode_even heven dst false
  have hencode := hexEncodeEx_all hexTable_up (decodeBytes src)
  rw [← encodeBytes_decodeBytes heven]
  constructor
  · rintro (⟨e, he⟩ | ⟨size, data, hdata, hsame⟩)
    · rw [hdecode] at he
      cases he
    · rw [hdecode] at hdata
      obtain ⟨rfl, rfl⟩ := Prod.mk.inj (Except.ok.inj (Except.ok.inj hdata))
      rw [hexEncode, hencode] at hsame
      exact Except.ok.inj hsame
  · intro hsame
    refine Or.inr ⟨_, _, hdecode, ?_⟩
    rw [hexEncode, hencode, hsame]

/-- `hex_decode` decodes hexadecimal digits, and does so for nothing else; strings of digits
that it takes for the same bytes differ in letter case only. -/
theorem hexDecode_accepts_iff (dst : List UInt8) :
    (∀ src : List UInt8, src.length % 2 = 0 →
        (DecodesHex dst src ↔ ∀ c ∈ src, IsHexDigit c)) ∧
      ∀ src src' : List UInt8, src.length % 2 = 0 → src'.length % 2 = 0 →
        (∀ c ∈ src, IsHexDigit c) → (∀ c ∈ src', IsHexDigit c) →
          hexDecode dst src false = hexDecode dst src' false →
            src.map toUpper = src'.map toUpper := by
  refine ⟨fun src heven => decodesHex_iff heven dst, ?_⟩
  intro src src' heven heven' hdigits hdigits' hsame
  rw [hexDecode_even heven, hexDecode_even heven'] at hsame
  have hbytes : decodeBytes src = decodeBytes src' :=
    (Prod.mk.inj (Except.ok.inj (Except.ok.inj hsame))).2
  rw [← (encodeBytes_decodeBytes heven).mpr hdigits,
    ← (encodeBytes_decodeBytes heven').mpr hdigits', hbytes]

/-- `a0`, and the same as `A0`. -/
theorem hexDecode_accepts_iff_case :
    (DecodesHex [] [97, 48] ↔ ∀ c ∈ [97, 48], IsHexDigit c) ∧
      List.map toUpper [97, 48] = List.map toUpper [65, 48] := by
  have hdigits : ∀ c : UInt8, IsHexDigit c → ∀ d ∈ [c, 48], IsHexDigit d := by
    intro c hc
    rw [List.forall_mem_cons, List.forall_mem_singleton]
    exact ⟨hc, by decide⟩
  exact ⟨(hexDecode_accepts_iff []).1 [97, 48] rfl,
    (hexDecode_accepts_iff []).2 [97, 48] [65, 48] rfl rfl (hdigits 97 (by decide))
      (hdigits 65 (by decide)) (by decide +kernel)⟩

/-- `GG` is decoded, to the same byte as `10`. -/
theorem hexDecode_no_digits :
    hexDecode [] [71, 71] false = .ok (.ok (1, [16])) ∧
      hexDecode [] [49, 48] false = .ok (.ok (1, [16])) ∧
      ¬IsHexDigit 71 ∧ ¬DecodesHex [] [71, 71] := by
  refine ⟨by decide +kernel, by decide +kernel, by decide, ?_⟩
  intro h
  have hdigit := (decodesHex_iff (show [71, 71].length % 2 = 0 from rfl) []).mp h 71
    List.mem_cons_self
  revert hdigit
  decide

end LiteMQ.Gears.StringManip
