import LiteMQ.Gears.TimeItems

/-!
# Reading back a single item

Every item reads back what it has written and leaves what the items behind it have
written, with two exceptions (`Item.read_output`): `%e` on the days 1 to 9, which begins
with a blank where `from_str_` wants a digit, and white space, which takes more than its
own character when `from_str_` is not strict.
-/

namespace LiteMQ.Gears
namespace ExtendedTime

/-- A split time whose fields `to_str_` writes without loss. -/
structure Printable (t : ExtendedTime) : Prop extends InRange t where
  usec : t.usec < 1000000
  year_le : t.year + 1900 ≤ 9999

/-! ## Numbers -/

theorem readNumber_fixedDigits {size n : Nat} (hpos : 0 < size) (hn : n < 10 ^ size)
    (strict : Bool) (rest : List Char) :
    readNumber size strict (fixedDigits size n ++ rest) = some (n, rest) := by
  have hlength := fixedDigits_length size n
  have hdigits := fixedDigits_isDigit size n
  have hscan := scanDigits_fixedDigits hn rest
  revert hlength hdigits hscan
  generalize fixedDigits size n = digits
  intro hlength hdigits hscan
  have hle : size ≤ (digits ++ rest).length := by
    rw [List.length_append]
    omega
  have hmin : Min.min size (digits ++ rest).length = size := Nat.min_eq_left hle
  cases digits with
  | nil =>
      rw [List.length_nil] at hlength
      omega
  | cons c digits =>
      have hc : c.isDigit = true := hdigits c List.mem_cons_self
      rw [List.cons_append] at hle hmin hscan ⊢
      rw [readNumber, if_neg, hmin, hscan]
      · simp
      · rintro (hnone | ⟨-, hshort⟩)
        · rw [hc] at hnone
          cases hnone
        · omega

/-- Without `strict`, a number ends where the digits do. -/
theorem readNumber_lenient {c : Char} (hc : c.isDigit = true) (size : Nat) (text : List Char) :
    readNumber size false (c :: text) =
      some ((scanDigits size 0 (c :: text)).1, (scanDigits size 0 (c :: text)).2.2) := by
  obtain ⟨hnumber, hrest⟩ := scanDigits_min size 0 (c :: text)
  rw [readNumber, if_neg (by simp [hc])]
  simp only [Bool.false_eq_true, false_and, if_false]
  rw [hnumber, hrest]

/-- What is read is what the scanner finds. -/
theorem readNumber_eq_some {size n : Nat} {strict : Bool} {value rest : List Char}
    (h : readNumber size strict value = some (n, rest)) :
    ¬NoDigitFirst value ∧ (scanDigits size 0 value).1 = n ∧ (scanDigits size 0 value).2.2 = rest := by
  cases value with
  | nil => cases h
  | cons c text =>
      obtain ⟨hnumber, hrest⟩ := scanDigits_min size 0 (c :: text)
      rcases hscan : scanDigits (Min.min size (c :: text).length) 0 (c :: text) with
        ⟨number, left, rest'⟩
      rw [hscan] at hnumber hrest
      rw [readNumber, hscan] at h
      split at h
      · cases h
      · rename_i hfirst
        obtain ⟨-, hread⟩ := Option.ite_none_left_eq_some.mp h
        obtain ⟨rfl, rfl⟩ := Prod.mk.inj (Option.some.inj hread)
        refine ⟨?_, hnumber.symm, hrest.symm⟩
        intro hnone
        exact hfirst (Or.inl (hnone c text rfl))

theorem readField_eq_ok {size : Nat} {inRange : Nat → Bool} {error : String}
    {store : ExtendedTime → Nat → ExtendedTime} {strict : Bool} {value rest : List Char}
    {tm tm' : ExtendedTime}
    (h : readField size inRange error store strict value tm = .ok (rest, tm')) :
    ∃ n, readNumber size strict value = some (n, rest) ∧ inRange n = true ∧ tm' = store tm n := by
  unfold readField at h
  split at h
  · rename_i n rest' hread
    split at h
    · rename_i hrange
      obtain ⟨rfl, rfl⟩ := Prod.mk.inj (Except.ok.inj h)
      exact ⟨n, hread, hrange, rfl⟩
    · cases h
  · cases h

/-- The specifier is read as a number of at most `size` digits, and writes `n` in as
many. -/
structure Specifier.Digits (s : Specifier) (t : ExtendedTime) (size n : Nat) : Prop where
  pos : 0 < size
  output : s.output t = fixedDigits size n
  small : n < 10 ^ size
  read : ∃ inRange error store, inRange n = true ∧
    (∀ tm, store tm n = Item.copy t tm (.spec s)) ∧
      ∀ strict value tm,
        readSpec strict s.char value tm = readField size inRange error store strict value tm

/-- The specifiers of digits. -/
def Specifier.numeric : Specifier → Bool
  | d | H | m | M | q | S | Y => true
  | _ => false

theorem Specifier.digits_of_numeric {t : ExtendedTime} (ht : t.Printable) {s : Specifier}
    (hs : s.numeric = true) : ∃ size n, s.Digits t size n := by
  have hmday := ht.mday
  have hmday_pos := ht.mday_pos
  have hhour := ht.hour
  have hmon := ht.mon
  have hmin := ht.min
  have husec := ht.usec
  have hsec := ht.sec
  have hyear := ht.year
  have hyear_le := ht.year_le
  cases s with
  | d =>
      refine ⟨2, t.mday, by omega, rfl, by omega, _, _, _, ?_, fun _ => rfl, fun _ _ _ => rfl⟩
      exact decide_eq_true ⟨hmday_pos, hmday⟩
  | H =>
      refine ⟨2, t.hour, by omega, rfl, by omega, _, _, _, ?_, fun _ => rfl, fun _ _ _ => rfl⟩
      exact decide_eq_true (by omega)
  | m =>
      refine ⟨2, t.mon + 1, by omega, rfl, by omega, _, _, _, ?_, fun _ => rfl, fun _ _ _ => rfl⟩
      exact decide_eq_true (by omega)
  | M =>
      refine ⟨2, t.min, by omega, rfl, by omega, _, _, _, ?_, fun _ => rfl, fun _ _ _ => rfl⟩
      exact decide_eq_true (by omega)
  | q =>
      refine ⟨6, t.usec, by omega, rfl, by omega, _, _, _, ?_, fun _ => rfl, fun _ _ _ => rfl⟩
      exact decide_eq_true husec
  | S =>
      refine ⟨2, t.sec, by omega, rfl, by omega, _, _, _, ?_, fun _ => rfl, fun _ _ _ => rfl⟩
      exact decide_eq_true (by omega)
  | Y =>
      refine ⟨4, t.year + 1900, by omega, rfl, by omega, _, _, _, ?_, fun _ => ?_,
        fun _ _ _ => rfl⟩
      · exact decide_eq_true (by omega)
      · show ExtendedTime.mk _ _ _ _ _ (t.year + 1900 - 1900) _ _ _ = _
        rw [Nat.add_sub_cancel]
        rfl
  | _ => cases hs

/-- From the 10th on, `%e` writes two digits. -/
theorem Specifier.digits_e {t : ExtendedTime} (ht : t.Printable) (hday : 10 ≤ t.mday) :
    ∃ size n, Specifier.e.Digits t size n := by
  have hmday := ht.mday
  have htens : t.mday / 10 ≠ 0 := by omega
  have hsmall : t.mday / 10 % 10 = t.mday / 10 := by omega
  refine ⟨2, t.mday, by omega, ?_, by omega, _, _, _, ?_, fun _ => rfl, fun _ _ _ => rfl⟩
  · show [if t.mday / 10 ≠ 0 then digitChar (t.mday / 10) else ' ', digitChar (t.mday % 10)] = _
    rw [if_pos htens]
    simp [fixedDigits, hsmall]
  · exact decide_eq_true ⟨ht.mday_pos, hmday⟩

theorem Specifier.Digits.read_output {s : Specifier} {t : ExtendedTime} {size n : Nat}
    (h : s.Digits t size n) (strict : Bool) (rest : List Char) (tm : ExtendedTime) :
    readSpec strict s.char (s.output t ++ rest) tm = .ok (rest, Item.copy t tm (.spec s)) := by
  obtain ⟨inRange, error, store, hrange, hstore, hread⟩ := h.read
  rw [hread, h.output, readField, readNumber_fixedDigits h.pos h.small]
  simp only [hrange, hstore, if_true]

/-! ## What is read at all -/

/-- `%e` is read as `%d` is. -/
def Specifier.readsNumber (s : Specifier) : Bool := s.numeric || s == .e

theorem Specifier.readSpec_number {s : Specifier} (hs : s.readsNumber = true) :
    ∃ size inRange error store,
      (∀ strict value tm,
        readSpec strict s.char value tm = readField size inRange error store strict value tm) ∧
      ∃ f, s.field = some f ∧
        ∀ n, inRange n = true → ∃ m, f.inRange m = true ∧ ∀ tm, store tm n = f.set tm m := by
  cases s with
  | d => exact ⟨2, _, _, _, fun _ _ _ => rfl, .day, rfl, fun n h => ⟨n, h, fun _ => rfl⟩⟩
  | e => exact ⟨2, _, _, _, fun _ _ _ => rfl, .day, rfl, fun n h => ⟨n, h, fun _ => rfl⟩⟩
  | H => exact ⟨2, _, _, _, fun _ _ _ => rfl, .hour, rfl, fun n h => ⟨n, h, fun _ => rfl⟩⟩
  | m =>
      refine ⟨2, _, _, _, fun _ _ _ => rfl, .month, rfl, fun n h => ⟨n - 1, ?_, fun _ => rfl⟩⟩
      have hrange := of_decide_eq_true h
      show decide (n - 1 < 12) = true
      exact decide_eq_true (by omega)
  | M => exact ⟨2, _, _, _, fun _ _ _ => rfl, .minute, rfl, fun n h => ⟨n, h, fun _ => rfl⟩⟩
  | q => exact ⟨6, _, _, _, fun _ _ _ => rfl, .microsecond, rfl, fun n h => ⟨n, h, fun _ => rfl⟩⟩
  | S => exact ⟨2, _, _, _, fun _ _ _ => rfl, .second, rfl, fun n h => ⟨n, h, fun _ => rfl⟩⟩
  | Y =>
      refine ⟨4, _, _, _, fun _ _ _ => rfl, .year, rfl, fun n h => ⟨n - 1900, ?_, fun _ => rfl⟩⟩
      have hrange : 1970 ≤ n := of_decide_eq_true h
      show decide (70 ≤ n - 1900) = true
      exact decide_eq_true (by omega)
  | _ => cases hs

theorem findName_lt {full short : List (List Char)} {text rest : List Char} {i : Nat}
    (h : findName full short text = some (i, rest)) : i < full.length := by
  induction full generalizing short i rest with
  | nil => cases h
  | cons name full ih =>
      cases short with
      | nil => cases h
      | cons name' short =>
          rw [findName] at h
          split at h
          · obtain ⟨rfl, -⟩ := Prod.mk.inj (Option.some.inj h)
            exact Nat.zero_lt_succ _
          · obtain ⟨⟨j, rest'⟩, hfound, hresult⟩ := Option.map_eq_some_iff.mp h
            obtain ⟨rfl, -⟩ := Prod.mk.inj hresult
            exact Nat.succ_lt_succ (ih hfound)

/-- An item leaves the fields as they are, or sets the one that it gives to a value in
range. -/
theorem Item.read_eq_ok {strict : Bool} {value rest : List Char} {tm tm' : ExtendedTime}
    {item : Item} (h : item.read strict value tm = .ok (rest, tm')) :
    item.field = none ∧ tm' = tm ∨
      ∃ f n, item.field = some f ∧ f.inRange n = true ∧ tm' = f.set tm n := by
  cases item with
  | literal l =>
      change (readLiteral strict l.char value).map _ = _ at h
      cases hread : readLiteral strict l.char value with
      | error e =>
          rw [hread] at h
          cases h
      | ok rest' =>
          rw [hread] at h
          obtain ⟨-, rfl⟩ := Prod.mk.inj (Except.ok.inj h)
          exact Or.inl ⟨rfl, rfl⟩
  | spec s =>
      change readSpec strict s.char value tm = _ at h
      cases hnumber : s.readsNumber with
      | true =>
          -- the numeric specifiers check the range of what they store
          obtain ⟨size, inRange, error, store, hread, f, hfield, hstore⟩ := s.readSpec_number hnumber
          rw [hread] at h
          obtain ⟨n, -, hrange, rfl⟩ := readField_eq_ok h
          obtain ⟨m, hm, hset⟩ := hstore n hrange
          exact Or.inr ⟨f, m, hfield, hm, hset tm⟩
      | false =>
          cases s with
          | percent =>
              unfold readSpec at h
              simp only [Specifier.char] at h
              split at h
              · obtain ⟨-, rfl⟩ := Prod.mk.inj (Except.ok.inj h)
                exact Or.inl ⟨rfl, rfl⟩
              · cases h
          | a | A =>
              unfold readSpec at h
              simp only [Specifier.char] at h
              split at h
              · obtain ⟨-, rfl⟩ := Prod.mk.inj (Except.ok.inj h)
                exact Or.inl ⟨rfl, rfl⟩
              · cases h
          | b | h | B =>
              unfold readSpec at h
              simp only [Specifier.char] at h
              split at h
              · -- the place of the name in the table is the month
                rename_i n rest' hfound
                obtain ⟨-, rfl⟩ := Prod.mk.inj (Except.ok.inj h)
                exact Or.inr ⟨.month, n, rfl, decide_eq_true (findName_lt hfound), rfl⟩
              · cases h
          | _ => cases hnumber

/-! ## What the items write -/

/-- The places of a table of names. -/
theorem getD_mem {α : Type} {l : List α} {i : Nat} (hi : i < l.length) (d : α) :
    l.getD i d ∈ l := by
  rw [List.getD_eq_getElem l d hi]
  exact List.getElem_mem hi

/-- The specifier writes a name, in its short form or in its full one. -/
def Specifier.WritesName (s : Specifier) (t : ExtendedTime) : Prop :=
  ∃ name ∈ daysShort ++ monthsShort, ∃ ending, s.output t = name ++ ending

theorem writesName_day {t : ExtendedTime} (ht : t.Printable) {s : Specifier}
    (hs : s = .a ∨ s = .A) : s.WritesName t := by
  have hmem : daysShort.getD t.wday [] ∈ daysShort ++ monthsShort :=
    List.mem_append_left _ (getD_mem ht.wday [])
  rcases hs with rfl | rfl
  · exact ⟨_, hmem, [], (List.append_nil _).symm⟩
  · exact ⟨_, hmem, _, (days_separated.2 t.wday ht.wday).2⟩

theorem writesName_month {t : ExtendedTime} (ht : t.Printable) {s : Specifier}
    (hs : s = .b ∨ s = .h ∨ s = .B) : s.WritesName t := by
  have hmem : monthsShort.getD t.mon [] ∈ daysShort ++ monthsShort :=
    List.mem_append_right _ (getD_mem ht.mon [])
  rcases hs with rfl | rfl | rfl
  · exact ⟨_, hmem, [], (List.append_nil _).symm⟩
  · exact ⟨_, hmem, [], (List.append_nil _).symm⟩
  · exact ⟨_, hmem, _, (months_separated.2 t.mon ht.mon).2⟩

/-- Every specifier writes a percent sign, a name, digits, or the day behind a blank. -/
theorem Specifier.output_cases {t : ExtendedTime} (ht : t.Printable) (s : Specifier) :
    s = .percent ∨ s.numeric = false ∧ s.WritesName t ∨
      (s.numeric = true ∨ 10 ≤ t.mday) ∧ (∃ size n, s.Digits t size n) ∨
        s = .e ∧ t.mday < 10 := by
  cases hnumeric : s.numeric with
  | true =>
      refine Or.inr (Or.inr (Or.inl ⟨Or.inl rfl, ?_⟩))
      exact Specifier.digits_of_numeric ht hnumeric
  | false =>
      cases s with
      | percent => exact Or.inl rfl
      | a => exact Or.inr (Or.inl ⟨rfl, writesName_day ht (by simp)⟩)
      | A => exact Or.inr (Or.inl ⟨rfl, writesName_day ht (by simp)⟩)
      | b => exact Or.inr (Or.inl ⟨rfl, writesName_month ht (by simp)⟩)
      | h => exact Or.inr (Or.inl ⟨rfl, writesName_month ht (by simp)⟩)
      | B => exact Or.inr (Or.inl ⟨rfl, writesName_month ht (by simp)⟩)
      | e =>
          by_cases hday : t.mday < 10
          · exact Or.inr (Or.inr (Or.inr ⟨rfl, hday⟩))
          · have hten : 10 ≤ t.mday := Nat.le_of_not_lt hday
            exact Or.inr (Or.inr (Or.inl ⟨Or.inr hten, Specifier.digits_e ht hten⟩))
      | _ => cases hnumeric

theorem output_e_short {t : ExtendedTime} (hday : t.mday < 10) :
    Specifier.e.output t = [' ', digitChar t.mday] := by
  have htens : ¬t.mday / 10 ≠ 0 := by omega
  show [if t.mday / 10 ≠ 0 then digitChar (t.mday / 10) else ' ', digitChar (t.mday % 10)] = _
  rw [if_neg htens, Nat.mod_eq_of_lt hday]

theorem Specifier.Digits.first {s : Specifier} {t : ExtendedTime} {size n : Nat}
    (h : s.Digits t size n) :
    ∃ c own, s.output t = c :: own ∧ own.length + 1 = size ∧
      c.isDigit = true ∧ ∀ c ∈ own, c.isDigit = true := by
  have hlength : (s.output t).length = size := by rw [h.output, fixedDigits_length]
  have hdigits : ∀ c ∈ s.output t, c.isDigit = true := by
    rw [h.output]
    exact fixedDigits_isDigit size n
  cases hown : s.output t with
  | nil =>
      rw [hown, List.length_nil] at hlength
      exact absurd hlength (Nat.ne_of_lt h.pos)
  | cons c own =>
      rw [hown] at hlength hdigits
      obtain ⟨hc, hrest⟩ := List.forall_mem_cons.mp hdigits
      exact ⟨c, own, rfl, hlength, hc, hrest⟩

theorem not_isAlpha_of_isDigit {c : Char} (hc : c.isDigit = true) : c.isAlpha = false := by
  have hle : c.val ≤ '9'.val := of_decide_eq_true (Bool.and_eq_true_iff.mp hc).2
  have hletter : ∀ letter : Char, '9'.val.toNat < letter.val.toNat → ¬c.val ≥ letter.val := by
    intro letter hlt hge
    have hle' := UInt32.le_iff_toNat_le.mp hle
    have hge' := UInt32.le_iff_toNat_le.mp hge
    omega
  apply Bool.or_eq_false_iff.mpr
  constructor
  · apply decide_eq_false
    exact fun hupper => hletter 'A' (by decide) hupper.1
  · apply Bool.and_eq_false_imp.mpr
    intro hlower
    exact absurd (of_decide_eq_true hlower) (hletter 'a' (by decide))

theorem not_isSpace_of_isDigit {c : Char} (hc : c.isDigit = true) : isSpace c = false := by
  obtain ⟨hge, -⟩ := Bool.and_eq_true_iff.mp hc
  have hge' : 48 ≤ c.toNat := UInt32.le_iff_toNat_le.mp (of_decide_eq_true hge)
  apply decide_eq_false
  rintro (rfl | ⟨-, hcontrol⟩)
  · exact absurd hge' (by decide)
  · omega

/-- A name begins with neither white space nor a digit. -/
theorem name_first {name : List Char} (h : name ∈ daysShort ++ monthsShort) :
    ∃ c rest, name = c :: rest ∧ isSpace c = false ∧ c.isDigit = false := by
  have hfirsts : ∀ name ∈ daysShort ++ monthsShort,
      name.head?.any (fun c => isSpace c = false ∧ c.isDigit = false) = true := by
    decide
  have hfirst := hfirsts name h
  cases name with
  | nil => cases hfirst
  | cons c rest => exact ⟨c, rest, rfl, of_decide_eq_true hfirst⟩

/-- The items that begin with a digit on the days 1 to 9. -/
def Item.startsWithDigit : Item → Bool
  | .spec s => s.numeric
  | .literal l => l.char.isDigit

/-- The first character that an item writes. -/
theorem Item.first {t : ExtendedTime} (ht : t.Printable) (item : Item) :
    ∃ c own, item.output t = c :: own ∧
      (item.isSpace = false → (item = .spec .e → 10 ≤ t.mday) → Gears.isSpace c = false) ∧
        (t.mday < 10 → c.isDigit = item.startsWithDigit) := by
  cases item with
  | literal l => exact ⟨l.char, [], rfl, fun h _ => h, fun _ => rfl⟩
  | spec s =>
      rcases s.output_cases ht with
        rfl | ⟨hnumeric, name, hmem, ending, hname⟩ | ⟨hdigits, size, n, h⟩ | ⟨rfl, hday⟩
      · exact ⟨'%', [], rfl, fun _ _ => by decide, fun _ => rfl⟩
      · obtain ⟨c, rest, rfl, hspace, hdigit⟩ := name_first hmem
        refine ⟨c, rest ++ ending, hname, fun _ _ => hspace, fun _ => ?_⟩
        rw [hdigit]
        exact hnumeric.symm
      · obtain ⟨c, own, hown, -, hc, -⟩ := h.first
        refine ⟨c, own, hown, fun _ _ => not_isSpace_of_isDigit hc, fun hday => ?_⟩
        rw [hc]
        exact (hdigits.resolve_right (by omega)).symm
      · refine ⟨' ', [digitChar t.mday], output_e_short hday, fun _ he => ?_, fun _ => rfl⟩
        have hten := he rfl
        omega

/-- Nothing that a format writes completes a short name. -/
theorem noEnding_outputs {t : ExtendedTime} (ht : t.Printable) (items : List Item) :
    NoEnding (outputs t items) := by
  cases items with
  | nil => exact noEnding_nil
  | cons item items =>
      rw [outputs_cons]
      cases item with
      | literal l => exact noEnding_cons l.noLetter _
      | spec s =>
          show NoEnding (s.output t ++ outputs t items)
          rcases s.output_cases ht with
            rfl | ⟨-, name, hmem, ending, hname⟩ | ⟨-, size, n, h⟩ | ⟨rfl, hday⟩
          · exact noEnding_cons (by decide) _
          · rw [hname, List.append_assoc]
            exact noEnding_name hmem _
          · obtain ⟨c, own, hown, -, hc, -⟩ := h.first
            rw [hown]
            exact noEnding_cons (not_isAlpha_of_isDigit hc) _
          · rw [output_e_short hday]
            exact noEnding_cons (by decide) _

/-! ## Reading it back -/

theorem readSpec_day {t : ExtendedTime} (ht : t.Printable) {s : Specifier}
    (hs : s = .a ∨ s = .A) (strict : Bool) (items : List Item) (tm : ExtendedTime) :
    readSpec strict s.char (s.output t ++ outputs t items) tm = .ok (outputs t items, tm) := by
  have hfound : findName daysFull daysShort (s.output t ++ outputs t items) =
      some (t.wday, outputs t items) := by
    rcases hs with rfl | rfl
    · exact findName_short days_separated ht.wday
        ((noEnding_outputs ht items).at (Or.inl rfl) ht.wday)
    · exact findName_full days_separated ht.wday _
  rcases hs with rfl | rfl
  · unfold readSpec
    simp only [Specifier.char, hfound]
  · unfold readSpec
    simp only [Specifier.char, hfound]

theorem readSpec_month {t : ExtendedTime} (ht : t.Printable) {s : Specifier}
    (hs : s = .b ∨ s = .h ∨ s = .B) (strict : Bool) (items : List Item) (tm : ExtendedTime) :
    readSpec strict s.char (s.output t ++ outputs t items) tm =
      .ok (outputs t items, { tm with mon := t.mon }) := by
  have hshort := findName_short months_separated ht.mon
    ((noEnding_outputs ht items).at (Or.inr rfl) ht.mon)
  have hfound : findName monthsFull monthsShort (s.output t ++ outputs t items) =
      some (t.mon, outputs t items) := by
    rcases hs with rfl | rfl | rfl
    · exact hshort
    · exact hshort
    · exact findName_full months_separated ht.mon _
  rcases hs with rfl | rfl | rfl
  · unfold readSpec
    simp only [Specifier.char, hfound]
  · unfold readSpec
    simp only [Specifier.char, hfound]
  · unfold readSpec
    simp only [Specifier.char, hfound]

theorem Specifier.read_numeric {t : ExtendedTime} (ht : t.Printable) {s : Specifier}
    (hs : s.numeric = true) (strict : Bool) (rest : List Char) (tm : ExtendedTime) :
    readSpec strict s.char (s.output t ++ rest) tm = .ok (rest, Item.copy t tm (.spec s)) := by
  obtain ⟨size, n, h⟩ := Specifier.digits_of_numeric ht hs
  exact h.read_output strict rest tm

/-- A literal that is not taken for white space is read as itself. -/
theorem readLiteral_self {strict : Bool} {c : Char} (h : ¬(strict = false ∧ isSpace c = true))
    (rest : List Char) : readLiteral strict c (c :: rest) = .ok rest := by
  rw [readLiteral, if_neg h]
  exact if_pos rfl

/-- An item reads back what it has written. -/
theorem Item.read_output {t : ExtendedTime} (ht : t.Printable) {strict : Bool} {item : Item}
    (hspace : ¬(strict = false ∧ item.isSpace = true))
    (he : item = .spec .e → 10 ≤ t.mday) (items : List Item) (tm : ExtendedTime) :
    item.read strict (outputs t (item :: items)) tm = .ok (outputs t items, item.copy t tm) := by
  rw [outputs_cons]
  cases item with
  | literal l =>
      show (readLiteral strict l.char (l.char :: outputs t items)).map _ = _
      rw [readLiteral_self hspace]
      rfl
  | spec s =>
      show readSpec strict s.char (s.output t ++ outputs t items) tm = _
      cases s with
      | percent => rfl
      | a => exact readSpec_day ht (Or.inl rfl) strict items tm
      | A => exact readSpec_day ht (Or.inr rfl) strict items tm
      | b => exact readSpec_month ht (by simp) strict items tm
      | h => exact readSpec_month ht (by simp) strict items tm
      | B => exact readSpec_month ht (by simp) strict items tm
      | e =>
          obtain ⟨size, n, h⟩ := Specifier.digits_e ht (he rfl)
          exact h.read_output strict _ tm
      | _ => exact Specifier.read_numeric ht rfl strict _ tm

end ExtendedTime
end LiteMQ.Gears
