import Mathlib.Data.List.Basic

/-!
# Cyclic redundancy checks as shift registers

A register of `w` bits is shifted to the left.  Where a bit falls out, the polynomial is
subtracted, which is an exclusive or.  A byte goes into the top of the register and is
shifted out bit by bit.

The shift is linear (`shiftBits_xor`), so what eight shifts make of the register is what
they make of its top byte, apart from the rest, which only moves (`crcByte_eq`).  A table
of what they make of each byte then gives a step for whole bytes (`crc_eq_foldl`).
-/

namespace ShiftRegister

variable {w : Nat} (poly : BitVec w)

/-- Shift out one bit. -/
def shiftOut (x : BitVec w) : BitVec w := x <<< 1 ^^^ if x.msb then poly else 0

/-- Shift out so many bits. -/
def shiftBits : Nat → BitVec w → BitVec w
  | 0, x => x
  | n + 1, x => shiftBits n (shiftOut poly x)

/-- A byte in the top of the register. -/
def topByte (b : BitVec 8) : BitVec w := b.setWidth w <<< (w - 8)

/-- Put a byte in the top of the register, and shift it out. -/
def crcByte (c : BitVec w) (b : BitVec 8) : BitVec w := shiftBits poly 8 (c ^^^ topByte b)

/-- The register behind a string of bytes. -/
def crc (c : BitVec w) (bytes : List (BitVec 8)) : BitVec w := bytes.foldl (crcByte poly) c

/-! ## Linearity -/

theorem shiftOut_xor (x y : BitVec w) :
    shiftOut poly (x ^^^ y) = shiftOut poly x ^^^ shiftOut poly y := by
  unfold shiftOut
  rw [BitVec.shiftLeft_xor_distrib, BitVec.msb_xor]
  cases x.msb <;> cases y.msb
  · simp
  · simp [BitVec.xor_assoc]
  · simp only [Bool.xor_false, if_true, Bool.false_eq_true, if_false, BitVec.ofNat_eq_ofNat,
      BitVec.xor_zero]
    ac_rfl
  · have hcancel : poly ^^^ poly = 0 := BitVec.xor_self
    have hreorder : x <<< 1 ^^^ poly ^^^ (y <<< 1 ^^^ poly) =
        x <<< 1 ^^^ y <<< 1 ^^^ (poly ^^^ poly) := by ac_rfl
    simp only [Bool.xor_true, Bool.not_true, Bool.false_eq_true, if_false, if_true]
    rw [hreorder, hcancel]

theorem shiftBits_xor (n : Nat) (x y : BitVec w) :
    shiftBits poly n (x ^^^ y) = shiftBits poly n x ^^^ shiftBits poly n y := by
  induction n generalizing x y with
  | zero => rfl
  | succ n ih => rw [shiftBits, shiftOut_xor, ih, shiftBits, shiftBits]

/-- Without bits at the top the register only moves. -/
theorem shiftBits_of_clear {n : Nat} {x : BitVec w} (h : ∀ i < n, x.getMsbD i = false) :
    shiftBits poly n x = x <<< n := by
  induction n generalizing x with
  | zero => rw [shiftBits, BitVec.shiftLeft_zero]
  | succ n ih =>
      have hmsb : x.msb = false := by
        rw [BitVec.msb]
        exact h 0 (Nat.succ_pos n)
      have hshift : shiftOut poly x = x <<< 1 := by
        rw [shiftOut, hmsb]
        simp
      have hclear : ∀ i < n, (x <<< 1).getMsbD i = false := by
        intro i hi
        rw [BitVec.getMsbD_shiftLeft]
        exact h (i + 1) (Nat.succ_lt_succ hi)
      rw [shiftBits, hshift, ih hclear, ← BitVec.shiftLeft_add, Nat.add_comm 1]

/-! ## Whole bytes -/

/-- The byte in the top of a register. -/
def highByte (c : BitVec w) : BitVec 8 := (c >>> (w - 8)).setWidth 8

/-- A register is the rest and the byte in its top. -/
theorem eq_rest_xor_topByte (hw : 8 ≤ w) (c : BitVec w) :
    c = (c <<< 8) >>> 8 ^^^ topByte (highByte c) := by
  refine BitVec.eq_of_getLsbD_eq fun i hi => ?_
  simp only [topByte, highByte, BitVec.getLsbD_xor, BitVec.getLsbD_ushiftRight,
    BitVec.getLsbD_shiftLeft, BitVec.getLsbD_setWidth]
  rcases Nat.lt_or_ge i (w - 8) with hlow | hhigh
  · have hin : 8 + i < w := by omega
    simp [hin, hlow]
  · have hout : ¬ 8 + i < w := by omega
    have hbyte : i - (w - 8) < 8 := by omega
    have hplace : w - 8 + (i - (w - 8)) = i := by omega
    simp [hi, hout, hbyte, hplace, Nat.not_lt.2 hhigh]
    omega

theorem topByte_xor (a b : BitVec 8) :
    (topByte (a ^^^ b) : BitVec w) = topByte a ^^^ topByte b := by
  rw [topByte, BitVec.setWidth_xor, BitVec.shiftLeft_xor_distrib, topByte, topByte]

/-- The rest has nothing in its top byte. -/
theorem getMsbD_rest (c : BitVec w) :
    ∀ i < 8, ((c <<< 8) >>> 8).getMsbD i = false := by
  intro i hi
  rw [BitVec.getMsbD_ushiftRight]
  simp [hi]

/-- Eight shifts of the register are eight shifts of its top byte; the rest moves. -/
theorem crcByte_eq (hw : 8 ≤ w) (c : BitVec w) (b : BitVec 8) :
    crcByte poly c b = c <<< 8 ^^^ shiftBits poly 8 (topByte (highByte c ^^^ b)) := by
  have hsplit : c ^^^ topByte b = (c <<< 8) >>> 8 ^^^ topByte (highByte c ^^^ b) := by
    rw [topByte_xor, ← BitVec.xor_assoc, ← eq_rest_xor_topByte hw]
  have hrest : ((c <<< 8) >>> 8) <<< 8 = c <<< 8 := by
    refine BitVec.eq_of_getLsbD_eq fun i hi => ?_
    simp only [BitVec.getLsbD_ushiftRight, BitVec.getLsbD_shiftLeft]
    by_cases hbyte : i < 8
    · simp [hbyte]
    · have hplace : 8 + (i - 8) = i := by omega
      simp [hplace]
  rw [crcByte, hsplit, shiftBits_xor, shiftBits_of_clear poly (getMsbD_rest c), hrest]

/-- A table of what eight shifts make of each byte runs the register bytewise. -/
theorem crc_eq_foldl (hw : 8 ≤ w) {image : BitVec 8 → BitVec w}
    (himage : ∀ b, image b = shiftBits poly 8 (topByte b)) (c : BitVec w)
    (bytes : List (BitVec 8)) :
    crc poly c bytes =
      bytes.foldl (fun (c : BitVec w) b => c <<< 8 ^^^ image (highByte c ^^^ b)) c := by
  have hstep : crcByte poly = fun (c : BitVec w) b => c <<< 8 ^^^ image (highByte c ^^^ b) := by
    funext c b
    rw [crcByte_eq poly hw, himage]
  rw [crc, hstep]

end ShiftRegister
