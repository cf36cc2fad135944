import LiteMQ.Foundation.Lexicographic
import LiteMQ.Gears.Hex

/-!
# Caseless comparisons

Two functions and two members of `Caseless` compare two pieces of memory character by
character through a table of lower-case letters.  They do not look at the characters when
both pieces begin at the same place.

All of them agree with the lexicographic order of the lowered characters, which are signed
(`caseless_agree`); so the order that they induce is a total preorder.
-/

namespace LiteMQ.Gears.Ascii

open Lexicographic
open StringManip (signedChar)

/-- `ASCII_TOLOWER_TABLE` -/
def asciiToLowerTable : List UInt8 :=
  [0x00, 0x01, 0x02, 0x03, 0x04, 0x05, 0x06, 0x07,
    0x08, 0x09, 0x0A, 0x0B, 0x0C, 0x0D, 0x0E, 0x0F,
    0x10, 0x11, 0x12, 0x13, 0x14, 0x15, 0x16, 0x17,
    0x18, 0x19, 0x1A, 0x1B, 0x1C, 0x1D, 0x1E, 0x1F,
    0x20, 0x21, 0x22, 0x23, 0x24, 0x25, 0x26, 0x27,
    0x28, 0x29, 0x2A, 0x2B, 0x2C, 0x2D, 0x2E, 0x2F,
    0x30, 0x31, 0x32, 0x33, 0x34, 0x35, 0x36, 0x37,
    0x38, 0x39, 0x3A, 0x3B, 0x3C, 0x3D, 0x3E, 0x3F,
    0x40, 0x61, 0x62, 0x63, 0x64, 0x65, 0x66, 0x67,
    0x68, 0x69, 0x6A, 0x6B, 0x6C, 0x6D, 0x6E, 0x6F,
    0x70, 0x71, 0x72, 0x73, 0x74, 0x75, 0x76, 0x77,
    0x78, 0x79, 0x7A, 0x5B, 0x5C, 0x5D, 0x5E, 0x5F,
    0x60, 0x61, 0x62, 0x63, 0x64, 0x65, 0x66, 0x67,
    0x68, 0x69, 0x6A, 0x6B, 0x6C, 0x6D, 0x6E, 0x6F,
    0x70, 0x71, 0x72, 0x73, 0x74, 0x75, 0x76, 0x77,
    0x78, 0x79, 0x7A, 0x7B, 0x7C, 0x7D, 0x7E, 0x7F,
    0x80, 0x81, 0x82, 0x83, 0x84, 0x85, 0x86, 0x87,
    0x88, 0x89, 0x8A, 0x8B, 0x8C, 0x8D, 0x8E, 0x8F,
    0x90, 0x91, 0x92, 0x93, 0x94, 0x95, 0x96, 0x97,
    0x98, 0x99, 0x9A, 0x9B, 0x9C, 0x9D, 0x9E, 0x9F,
    0xA0, 0xA1, 0xA2, 0xA3, 0xA4, 0xA5, 0xA6, 0xA7,
    0xA8, 0xA9, 0xAA, 0xAB, 0xAC, 0xAD, 0xAE, 0xAF,
    0xB0, 0xB1, 0xB2, 0xB3, 0xB4, 0xB5, 0xB6, 0xB7,
    0xB8, 0xB9, 0xBA, 0xBB, 0xBC, 0xBD, 0xBE, 0xBF,
    0xC0, 0xC1, 0xC2, 0xC3, 0xC4, 0xC5, 0xC6, 0xC7,
    0xC8, 0xC9, 0xCA, 0xCB, 0xCC, 0xCD, 0xCE, 0xCF,
    0xD0, 0xD1, 0xD2, 0xD3, 0xD4, 0xD5, 0xD6, 0xD7,
    0xD8, 0xD9, 0xDA, 0xDB, 0xDC, 0xDD, 0xDE, 0xDF,
    0xE0, 0xE1, 0xE2, 0xE3, 0xE4, 0xE5, 0xE6, 0xE7,
    0xE8, 0xE9, 0xEA, 0xEB, 0xEC, 0xED, 0xEE, 0xEF,
    0xF0, 0xF1, 0xF2, 0xF3, 0xF4, 0xF5, 0xF6, 0xF7,
    0xF8, 0xF9, 0xFA, 0xFB, 0xFC, 0xFD, 0xFE, 0xFF]

/-! ## The functions -/

/-- The two characters through the table, and what is subtracted. -/
def difference (mem : List UInt8) (str1 str2 : Nat) : Except Fault Int := do
  let ch1 ← Buffer.load mem str1
  let lower1 ← Buffer.load asciiToLowerTable ch1.toNat
  let ch2 ← Buffer.load mem str2
  let lower2 ← Buffer.load asciiToLowerTable ch2.toNat
  .ok (signedChar lower1 - signedChar lower2)

/-- The loop of `compare_caseless`, with `len` behind its decrement. -/
def compareLoop (mem : List UInt8) (str1 str2 : Nat) : (len : Nat) → Except Fault Int
  | 0 => difference mem str1 str2
  | len + 1 => do
      let result ← difference mem str1 str2
      if result ≠ 0 then .ok result else compareLoop mem (str1 + 1) (str2 + 1) len

/-- `compare_caseless` -/
def compareCaseless (mem : List UInt8) (str1 len1 str2 len2 : Nat) : Except Fault Int :=
  let len := min len1 len2
  if str1 = str2 ∨ len = 0 then
    if len1 ≠ len2 then .ok (if len1 < len2 then -1 else 1) else .ok 0
  else do
    let result ← compareLoop mem str1 str2 (len - 1)
    if result = 0 ∧ len1 ≠ len2 then .ok (if len1 < len2 then -1 else 1) else .ok result

/-- `while (len--)` of `Caseless::compare`; 0 when it runs to its end. -/
def memberLoop (mem : List UInt8) (str1 str2 : Nat) : (len : Nat) → Except Fault Int
  | 0 => .ok 0
  | len + 1 => do
      let result ← difference mem str1 str2
      if result ≠ 0 then .ok result else memberLoop mem (str1 + 1) (str2 + 1) len

/-- `Caseless(str1).compare(str2)` -/
def caselessCompare (mem : List UInt8) (str1 len1 str2 len2 : Nat) : Except Fault Int := do
  let len := min len1 len2
  let result ← if str1 ≠ str2 ∧ len ≠ 0 then memberLoop mem str1 str2 len else .ok 0
  if result ≠ 0 then .ok result
  else .ok (if len1 ≠ len2 then if len1 < len2 then -1 else 1 else 0)

/-- The loop of `equal_caseless`, with `len1` behind its decrement. -/
def equalLoop (mem : List UInt8) (str1 str2 : Nat) : (len1 : Nat) → Except Fault Bool
  | 0 => do
      let result ← difference mem str1 str2
      .ok (decide (result = 0))
  | len1 + 1 => do
      let result ← difference mem str1 str2
      if result = 0 then equalLoop mem (str1 + 1) (str2 + 1) len1 else .ok false

/-- `equal_caseless` with both lengths. -/
def equalCaseless (mem : List UInt8) (str1 len1 str2 len2 : Nat) : Except Fault Bool :=
  if len1 ≠ len2 then .ok false
  else if str1 = str2 ∨ len1 = 0 then .ok true
  else equalLoop mem str1 str2 (len1 - 1)

/-- `Caseless(str1).equal(str2)`, which names the two the other way round. -/
def caselessEqual (mem : List UInt8) (str1 len1 str2 len2 : Nat) : Except Fault Bool :=
  equalCaseless mem str2 len2 str1 len1

/-- `equal_caseless` with a C string. -/
def equalCaselessCString (mem : List UInt8) (str1 str2 : Nat) : (len1 : Nat) → Except Fault Bool
  | 0 => do
      let ch ← Buffer.load mem str2
      .ok (decide (ch = 0))
  | len1 + 1 => do
      let ch ← Buffer.load mem str2
      if ch = 0 then .ok false
      else do
        let result ← difference mem str1 str2
        if result ≠ 0 then .ok false
        else equalCaselessCString mem (str1 + 1) (str2 + 1) len1

/-! ## The table -/

/-- A letter in lower case. -/
def lower (ch : UInt8) : UInt8 := if 65 ≤ ch.toNat ∧ ch.toNat ≤ 90 then ch + 32 else ch

theorem asciiToLowerTable_eq :
    asciiToLowerTable = (List.range 256).map fun i => lower (UInt8.ofNat i) := by
  decide +kernel

theorem load_asciiToLowerTable (ch : UInt8) :
    Buffer.load asciiToLowerTable ch.toNat = .ok (lower ch) := by
  have hlt : ch.toNat < 256 := ch.toNat_lt
  rw [asciiToLowerTable_eq, Buffer.load_eq_ok (by simpa using hlt)]
  simp

/-! ## Pieces of memory -/

/-- A piece of memory. -/
structure View (mem : List UInt8) where
  ptr : Nat
  size : Nat
  within : ptr + size ≤ mem.length

variable {mem : List UInt8}

/-- The bytes of a piece of memory, lowered, as signed characters. -/
def lowered (mem : List UInt8) (ptr size : Nat) : List Int :=
  ((mem.drop ptr).take size).map fun ch => signedChar (lower ch)

theorem lowered_succ {ptr : Nat} (h : ptr < mem.length) (size : Nat) :
    lowered mem ptr (size + 1) = signedChar (lower mem[ptr]) :: lowered mem (ptr + 1) size := by
  rw [lowered, List.drop_eq_getElem_cons h, List.take_succ_cons, List.map_cons]
  rfl

theorem length_lowered {ptr size : Nat} (h : ptr + size ≤ mem.length) :
    (lowered mem ptr size).length = size := by
  rw [lowered, List.length_map, List.length_take, List.length_drop]
  omega

theorem take_lowered {ptr size len : Nat} (h : len ≤ size) :
    (lowered mem ptr size).take len = lowered mem ptr len := by
  rw [lowered, ← List.map_take, List.take_take, Nat.min_eq_left h]
  rfl

/-! ## The loops -/

theorem difference_eq {str1 str2 : Nat} (h1 : str1 < mem.length) (h2 : str2 < mem.length) :
    difference mem str1 str2 =
      .ok (signedChar (lower mem[str1]) - signedChar (lower mem[str2])) := by
  rw [difference, Buffer.load_eq_ok h1, Fault.ok_bind, load_asciiToLowerTable, Fault.ok_bind,
    Buffer.load_eq_ok h2, Fault.ok_bind, load_asciiToLowerTable, Fault.ok_bind]

/-- The loop of `Caseless::compare` compares the lowered characters. -/
theorem memberLoop_sign {str1 str2 len : Nat} (h1 : str1 + len ≤ mem.length)
    (h2 : str2 + len ≤ mem.length) :
    ∃ r, memberLoop mem str1 str2 len = .ok r ∧
      r.sign = sign (lowered mem str1 len) (lowered mem str2 len) := by
  induction len generalizing str1 str2 with
  | zero => exact ⟨0, rfl, by simp [lowered]⟩
  | succ len ih =>
      have hlt1 : str1 < mem.length := by omega
      have hlt2 : str2 < mem.length := by omega
      rw [memberLoop, difference_eq hlt1 hlt2, Fault.ok_bind, lowered_succ hlt1,
        lowered_succ hlt2, sign_cons]
      by_cases heq : signedChar (lower mem[str1]) = signedChar (lower mem[str2])
      · rw [if_neg (by omega), if_pos heq]
        exact ih (by omega) (by omega)
      · rw [if_pos (by omega), if_neg heq]
        exact ⟨_, rfl, sign_sub _ _⟩

/-- The loop of `compare_caseless` is the same for one character more. -/
theorem compareLoop_eq (mem : List UInt8) (str1 str2 len : Nat) :
    compareLoop mem str1 str2 len = memberLoop mem str1 str2 (len + 1) := by
  induction len generalizing str1 str2 with
  | zero =>
      rw [compareLoop, memberLoop]
      cases hdifference : difference mem str1 str2 with
      | error fault => rfl
      | ok result =>
          rw [Fault.ok_bind, memberLoop]
          by_cases hzero : result = 0
          · rw [if_neg (not_not.2 hzero), hzero]
          · rw [if_pos hzero]
  | succ len ih =>
      rw [compareLoop, memberLoop]
      simp only [ih]

/-- The test for equality runs through the same characters. -/
theorem equalLoop_eq (mem : List UInt8) (str1 str2 len : Nat) :
    equalLoop mem str1 str2 len =
      compareLoop mem str1 str2 len >>= fun result => .ok (decide (result = 0)) := by
  induction len generalizing str1 str2 with
  | zero => rfl
  | succ len ih =>
      rw [equalLoop, compareLoop]
      cases hdifference : difference mem str1 str2 with
      | error fault => rfl
      | ok result =>
          rw [Fault.ok_bind, Fault.ok_bind, ih]
          by_cases hzero : result = 0
          · rw [if_pos hzero, if_neg (not_not.2 hzero)]
          · rw [if_neg hzero, if_pos hzero, Fault.ok_bind, decide_eq_false hzero]

/-! ## The comparisons -/

namespace View

/-- The lowered characters. -/
def chars (a : View mem) : List Int := lowered mem a.ptr a.size

theorem length_chars (a : View mem) : a.chars.length = a.size := length_lowered a.within

variable (a b : View mem)

/-- The common part decides, and then the size. -/
theorem sign_chars :
    sign a.chars b.chars =
      if sign (lowered mem a.ptr (min a.size b.size)) (lowered mem b.ptr (min a.size b.size)) ≠ 0
        then sign (lowered mem a.ptr (min a.size b.size)) (lowered mem b.ptr (min a.size b.size))
      else sign a.size b.size := by
  rw [sign_eq_of_take, length_chars, length_chars, chars, chars,
    take_lowered (Nat.min_le_left _ _), take_lowered (Nat.min_le_right _ _)]

/-- Where the pieces begin at one place, or one is empty, the common part is the same. -/
theorem sign_chars_of_shortcut (h : a.ptr = b.ptr ∨ min a.size b.size = 0) :
    sign a.chars b.chars = sign a.size b.size := by
  have hsame : lowered mem a.ptr (min a.size b.size) = lowered mem b.ptr (min a.size b.size) := by
    rcases h with h | h
    · rw [h]
    · rw [h]
      rfl
  rw [sign_chars, hsame, sign_self, if_neg (not_not.2 rfl)]

/-- What the loop and the sizes tell together. -/
theorem memberLoop_chars :
    ∃ r, memberLoop mem a.ptr b.ptr (min a.size b.size) = .ok r ∧
      (if r ≠ 0 then r else sign a.size b.size).sign = sign a.chars b.chars := by
  have ha := a.within
  have hb := b.within
  obtain ⟨r, hr, hsign⟩ := memberLoop_sign
    (show a.ptr + min a.size b.size ≤ mem.length by omega)
    (show b.ptr + min a.size b.size ≤ mem.length by omega)
  refine ⟨r, hr, ?_⟩
  rw [sign_chars, ← hsign]
  by_cases hzero : r = 0
  · rw [if_neg (not_not.2 hzero), hzero, if_neg (by decide), sign_sign]
  · rw [if_pos hzero, if_pos (mt Int.sign_eq_zero_iff_zero.1 hzero)]

theorem compareCaseless_sign :
    ∃ r, compareCaseless mem a.ptr a.size b.ptr b.size = .ok r ∧
      r.sign = sign a.chars b.chars := by
  have hsizes := sign_eq_ite a.size b.size
  rw [compareCaseless]
  simp only [compareLoop_eq]
  split
  · rename_i hshortcut
    refine ⟨sign a.size b.size, ?_, ?_⟩
    · rw [hsizes]
      split <;> simp_all
    · rw [sign_chars_of_shortcut a b hshortcut, sign_sign]
  · rename_i hlong
    obtain ⟨r, hr, hsign⟩ := memberLoop_chars a b
    have hlen : min a.size b.size - 1 + 1 = min a.size b.size := by omega
    refine ⟨_, ?_, hsign⟩
    rw [hlen, hr, Fault.ok_bind, hsizes]
    split <;> simp_all

theorem caselessCompare_sign :
    ∃ r, caselessCompare mem a.ptr a.size b.ptr b.size = .ok r ∧
      r.sign = sign a.chars b.chars := by
  have hsizes := sign_eq_ite a.size b.size
  rw [caselessCompare]
  by_cases hshortcut : a.ptr = b.ptr ∨ min a.size b.size = 0
  · have hskip : ¬(a.ptr ≠ b.ptr ∧ min a.size b.size ≠ 0) := by
      rintro ⟨hptr, hlen⟩
      exact hshortcut.elim hptr hlen
    refine ⟨sign a.size b.size, ?_, ?_⟩
    · simp only [if_neg hskip, Fault.ok_bind]
      rw [if_neg (by decide), hsizes]
      split <;> simp_all
    · rw [sign_chars_of_shortcut a b hshortcut, sign_sign]
  · rw [not_or] at hshortcut
    obtain ⟨r, hr, hsign⟩ := memberLoop_chars a b
    refine ⟨_, ?_, hsign⟩
    simp only [if_pos hshortcut, hr, Fault.ok_bind]
    rw [hsizes]
    split <;> simp_all

theorem equalCaseless_eq :
    equalCaseless mem a.ptr a.size b.ptr b.size = .ok (decide (a.chars = b.chars)) := by
  rw [equalCaseless]
  split
  · rename_i hsize
    have hne : a.chars ≠ b.chars := by
      intro h
      have hlen := congrArg List.length h
      rw [length_chars, length_chars] at hlen
      exact hsize hlen
    rw [decide_eq_false hne]
  rename_i hsize
  have hsize : a.size = b.size := not_not.1 hsize
  split
  · rename_i hshortcut
    have hzero : sign a.chars b.chars = 0 := by
      rw [sign_chars_of_shortcut a b (by omega), hsize, sign_self]
    rw [decide_eq_true (sign_eq_zero.1 hzero)]
  · rename_i hlong
    obtain ⟨r, hr, hsign⟩ := memberLoop_chars a b
    have hlen : a.size - 1 + 1 = min a.size b.size := by omega
    rw [equalLoop_eq, compareLoop_eq, hlen, hr, Fault.ok_bind]
    rw [hsize, sign_self] at hsign
    have hiff : r = 0 ↔ a.chars = b.chars := by
      rw [← sign_eq_zero (a := a.chars), ← hsign]
      split
      · rw [Int.sign_eq_zero_iff_zero]
      · rename_i hzero
        exact iff_of_true (not_not.1 hzero) rfl
    simp only [hiff]

theorem caselessEqual_eq :
    caselessEqual mem a.ptr a.size b.ptr b.size = .ok (decide (a.chars = b.chars)) := by
  rw [caselessEqual, equalCaseless_eq]
  simp only [eq_comm]

end View

/-- The test against a C string stops at its NUL. -/
theorem equalCaselessCString_eq {str1 len1 str2 len2 : Nat} (h1 : str1 + len1 ≤ mem.length)
    (hnul : mem[str2 + len2]? = some 0) (htext : 0 ∉ (mem.drop str2).take len2) :
    equalCaselessCString mem str1 str2 len1 =
      .ok (decide (lowered mem str1 len1 = lowered mem str2 len2)) := by
  have hload : Buffer.load mem (str2 + len2) = .ok 0 := by rw [Buffer.load, hnul]
  obtain ⟨hend, -⟩ := List.getElem?_eq_some_iff.1 hnul
  induction len1 generalizing str1 str2 len2 with
  | zero =>
      cases len2 with
      | zero =>
          rw [equalCaselessCString, show Buffer.load mem str2 = .ok 0 from hload]
          rfl
      | succ len2 =>
          have hlt : str2 < mem.length := by omega
          rw [List.drop_eq_getElem_cons hlt, List.take_succ_cons] at htext
          obtain ⟨hch, -⟩ := List.ne_and_not_mem_of_not_mem_cons htext
          rw [equalCaselessCString, Buffer.load_eq_ok hlt, Fault.ok_bind, lowered_succ hlt]
          simp [Ne.symm hch, lowered]
  | succ len1 ih =>
      have hlt1 : str1 < mem.length := by omega
      cases len2 with
      | zero =>
          rw [equalCaselessCString, show Buffer.load mem str2 = .ok 0 from hload, Fault.ok_bind,
            if_pos rfl, lowered_succ hlt1]
          simp [lowered]
      | succ len2 =>
          have hlt : str2 < mem.length := by omega
          have hnext : str2 + 1 + len2 = str2 + (len2 + 1) := by omega
          rw [List.drop_eq_getElem_cons hlt, List.take_succ_cons] at htext
          obtain ⟨hch, hrest⟩ := List.ne_and_not_mem_of_not_mem_cons htext
          rw [equalCaselessCString, Buffer.load_eq_ok hlt, Fault.ok_bind, if_neg (Ne.symm hch),
            difference_eq hlt1 hlt, Fault.ok_bind, lowered_succ hlt1, lowered_succ hlt]
          by_cases heq : signedChar (lower mem[str1]) = signedChar (lower mem[str2])
          · rw [if_neg (by omega), ih (by omega) (by rw [hnext]; exact hnul) hrest
              (by rw [hnext]; exact hload) (by omega)]
            simp [heq]
          · rw [if_pos (by omega)]
            simp [heq]

/-- The piece of memory is not greater. -/
def NotGreater (a b : View mem) : Prop :=
  ∃ r, compareCaseless mem a.ptr a.size b.ptr b.size = .ok r ∧ r ≤ 0

theorem notGreater_iff (a b : View mem) : NotGreater a b ↔ a.chars ≤ b.chars := by
  obtain ⟨r, hr, hsign⟩ := a.compareCaseless_sign b
  have hpos : 0 < r ↔ b.chars < a.chars := by
    rw [← Int.sign_eq_one_iff_pos, hsign, sign_eq_one]
  have hle : r ≤ 0 ↔ a.chars ≤ b.chars := by rw [← not_lt, hpos, not_lt]
  constructor
  · rintro ⟨r', hr', hle'⟩
    obtain rfl : r = r' := Except.ok.inj (hr.symm.trans hr')
    exact hle.1 hle'
  · intro h
    exact ⟨r, hr, hle.2 h⟩

/-- The comparisons agree with each other and with the lexicographic order of the lowered
characters, and induce a total preorder. -/
theorem caseless_agree (a b c : View mem) :
    (∃ r r', compareCaseless mem a.ptr a.size b.ptr b.size = .ok r ∧
        caselessCompare mem a.ptr a.size b.ptr b.size = .ok r' ∧
        r.sign = sign a.chars b.chars ∧ r'.sign = sign a.chars b.chars ∧
        (r = 0 ↔ equalCaseless mem a.ptr a.size b.ptr b.size = .ok true) ∧
        (r = 0 ↔ caselessEqual mem a.ptr a.size b.ptr b.size = .ok true) ∧
        (mem[b.ptr + b.size]? = some 0 → 0 ∉ (mem.drop b.ptr).take b.size →
          (r = 0 ↔ equalCaselessCString mem a.ptr b.ptr a.size = .ok true))) ∧
      NotGreater a a ∧ (NotGreater a b ∨ NotGreater b a) ∧
      (NotGreater a b → NotGreater b c → NotGreater a c) := by
  obtain ⟨r, hr, hsign⟩ := a.compareCaseless_sign b
  obtain ⟨r', hr', hsign'⟩ := a.caselessCompare_sign b
  have hzero : r = 0 ↔ a.chars = b.chars := by
    rw [← sign_eq_zero (a := a.chars), ← hsign, Int.sign_eq_zero_iff_zero]
  refine ⟨⟨r, r', hr, hr', hsign, hsign', ?_, ?_, ?_⟩, ?_, ?_, ?_⟩
  · rw [hzero, a.equalCaseless_eq b]
    simp
  · rw [hzero, a.caselessEqual_eq b]
    simp
  · intro hnul htext
    rw [hzero, equalCaselessCString_eq a.within hnul htext]
    simp [View.chars]
  · exact (notGreater_iff a a).2 le_rfl
  · rw [notGreater_iff, notGreater_iff]
    exact le_total _ _
  · rw [notGreater_iff, notGreater_iff, notGreater_iff]
    exact le_trans

end LiteMQ.Gears.Ascii
