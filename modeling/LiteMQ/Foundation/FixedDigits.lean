import Mathlib.Algebra.Ring.Nat
import Mathlib.Data.List.Basic

/-!
# Numbers in decimal digits of a fixed width

`fixedDigits width n` writes the last `width` decimal digits of `n`, with leading
zeros.  `scanDigits limit` reads a number from at most `limit` digits at the beginning
of a text and stops at the first character that is none.

A scanner reads back what was written with its own width, whatever follows
(`scanDigits_fixedDigits`).  What it leaves when it starts inside such a field is
`scanDigits_short`.
-/

/-- The character of a digit. -/
def digitChar (d : Nat) : Char := Char.ofNat ('0'.toNat + d)

/-- The number of a digit. -/
def digitValue (c : Char) : Nat := c.toNat - '0'.toNat

theorem digitChar_spec : ∀ d < 10, (digitChar d).isDigit = true ∧ digitValue (digitChar d) = d := by
  decide

theorem digitValue_lt {c : Char} (hc : c.isDigit = true) : digitValue c < 10 := by
  have hle : c.val ≤ '9'.val := of_decide_eq_true (Bool.and_eq_true_iff.mp hc).2
  have hbound : c.toNat ≤ 57 := UInt32.le_iff_toNat_le.mp hle
  have hzero : '0'.toNat = 48 := rfl
  unfold digitValue
  omega

/-- The last `width` decimal digits of `n`, written from the end. -/
def fixedDigits : (width : Nat) → (n : Nat) → List Char
  | 0, _ => []
  | width + 1, n => fixedDigits width (n / 10) ++ [digitChar (n % 10)]

@[simp] theorem fixedDigits_length (width n : Nat) : (fixedDigits width n).length = width := by
  induction width generalizing n with
  | zero => rfl
  | succ width ih => simp [fixedDigits, ih]

theorem fixedDigits_isDigit (width n : Nat) : ∀ c ∈ fixedDigits width n, c.isDigit = true := by
  induction width generalizing n with
  | zero => simp [fixedDigits]
  | succ width ih =>
      intro c hmem
      rw [fixedDigits, List.mem_append, List.mem_singleton] at hmem
      rcases hmem with hbefore | rfl
      · exact ih (n / 10) c hbefore
      · exact (digitChar_spec (n % 10) (Nat.mod_lt n (by omega))).1

/-- The number that digits add to what was read before them. -/
def digitsValue (n : Nat) (digits : List Char) : Nat :=
  digits.foldl (fun n c => n * 10 + digitValue c) n

theorem digitsValue_fixedDigits (width m n : Nat) :
    digitsValue m (fixedDigits width n) = m * 10 ^ width + n % 10 ^ width := by
  induction width generalizing n with
  | zero => simp [fixedDigits, digitsValue, Nat.mod_one]
  | succ width ih =>
      have hlast := (digitChar_spec (n % 10) (Nat.mod_lt n (by omega))).2
      have hsplit : n % 10 ^ (width + 1) = n / 10 % 10 ^ width * 10 + n % 10 := by
        rw [Nat.pow_succ, Nat.mul_comm (10 ^ width) 10, Nat.mod_mul]
        omega
      have hmul : m * 10 ^ (width + 1) = m * 10 ^ width * 10 := by
        rw [Nat.pow_succ, Nat.mul_assoc]
      unfold digitsValue at ih ⊢
      rw [fixedDigits, List.foldl_append, ih, hsplit, hmul]
      simp only [List.foldl_cons, List.foldl_nil, hlast]
      omega

/-- Read at most `limit` digits behind those that gave `n`: the number, how many more
digits were allowed, and the rest of the text. -/
def scanDigits : (limit : Nat) → (n : Nat) → List Char → Nat × Nat × List Char
  | 0, n, text => (n, 0, text)
  | limit + 1, n, [] => (n, limit + 1, [])
  | limit + 1, n, c :: text =>
      if c.isDigit then scanDigits limit (n * 10 + digitValue c) text
      else (n, limit + 1, c :: text)

/-- The text has no digit at its beginning. -/
def NoDigitFirst (text : List Char) : Prop := ∀ c rest, text = c :: rest → c.isDigit = false

/-- The scanner goes through digits that it may read. -/
theorem scanDigits_append {digits : List Char} (hdigits : ∀ c ∈ digits, c.isDigit = true)
    (limit n : Nat) (text : List Char) :
    scanDigits (digits.length + limit) n (digits ++ text) =
      scanDigits limit (digitsValue n digits) text := by
  induction digits generalizing n with
  | nil => simp [digitsValue]
  | cons c digits ih =>
      obtain ⟨hc, hrest⟩ := List.forall_mem_cons.mp hdigits
      rw [List.length_cons, Nat.add_right_comm, List.cons_append, scanDigits, if_pos hc, ih hrest]
      rfl

/-- The scanner stops where there is no digit. -/
theorem scanDigits_of_noDigitFirst {text : List Char} (h : NoDigitFirst text) (limit n : Nat) :
    scanDigits limit n text = (n, limit, text) := by
  cases limit with
  | zero => rfl
  | succ limit =>
      cases text with
      | nil => rfl
      | cons c rest => rw [scanDigits, if_neg (by simp [h c rest rfl])]

/-- A field is read back with its own width, whatever follows. -/
theorem scanDigits_fixedDigits {width n : Nat} (hn : n < 10 ^ width) (text : List Char) :
    scanDigits width 0 (fixedDigits width n ++ text) = (n, 0, text) := by
  have h := scanDigits_append (fixedDigits_isDigit width n) 0 0 text
  rw [fixedDigits_length, Nat.add_zero, digitsValue_fixedDigits, Nat.mod_eq_of_lt hn] at h
  simpa [scanDigits] using h

/-- A scanner that may read one digit more than there are in a field takes one from what
follows, when there is one. -/
theorem scanDigits_short {digits : List Char} (hdigits : ∀ c ∈ digits, c.isDigit = true) (n : Nat)
    (text : List Char) :
    (NoDigitFirst text ∧
        scanDigits (digits.length + 1) n (digits ++ text) = (digitsValue n digits, 1, text)) ∨
      ∃ c rest, text = c :: rest ∧ c.isDigit = true ∧
        scanDigits (digits.length + 1) n (digits ++ text) =
          (digitsValue n digits * 10 + digitValue c, 0, rest) := by
  rw [scanDigits_append hdigits]
  cases text with
  | nil => exact Or.inl ⟨nofun, rfl⟩
  | cons c rest =>
      cases hc : c.isDigit with
      | true => exact Or.inr ⟨c, rest, rfl, hc, by simp [scanDigits, hc]⟩
      | false =>
          have hnone : NoDigitFirst (c :: rest) := by
            rintro c' rest' heq
            obtain ⟨rfl, -⟩ := List.cons.inj heq
            exact hc
          exact Or.inl ⟨hnone, by rw [scanDigits_of_noDigitFirst hnone]⟩

/-- Digits that are allowed behind the end of the text do not matter. -/
theorem scanDigits_min (limit n : Nat) (text : List Char) :
    (scanDigits (min limit text.length) n text).1 = (scanDigits limit n text).1 ∧
      (scanDigits (min limit text.length) n text).2.2 = (scanDigits limit n text).2.2 := by
  induction text generalizing limit n with
  | nil => cases limit <;> simp [scanDigits]
  | cons c rest ih =>
      cases limit with
      | zero => simp
      | succ limit =>
          rw [List.length_cons, Nat.add_min_add_right, scanDigits, scanDigits]
          split
          · exact ih limit (n * 10 + digitValue c)
          · simp
