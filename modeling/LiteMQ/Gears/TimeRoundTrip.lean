import LiteMQ.Gears.TimeReading
import Mathlib.Data.List.DropRight

/-!
# When a formatted time is parsed back

`format` and `Time::set` are inverse for every format that covers the fields, except for
`%e` on the days 1 to 9.  There `to_str_` pads with a blank, and `from_str_`

* never takes a blank for a digit, so white space before `%e` has to skip it, which it
  does only when it is not strict;
* reads one digit more than there are, when a digit follows.

Otherwise every item is read where it was written (`fromStr_outputs`).  For the converse,
the reader is at its place or, behind a misread day, one digit ahead (`Position`).  A
misread day is out of range when it is the 4th or later, and it stands for another date
(`misread_day_ne`): only the 31st of February is the 3rd of March, and March is not misread
as February.  So the time comes back only when the day is given once more.
-/

namespace LiteMQ.Gears
namespace ExtendedTime

/-- What a text is when white space was read before it. -/
def skipped (strict spaced : Bool) (text : List Char) : List Char :=
  if strict = false ∧ spaced = true then text.dropWhile isSpace else text

/-- The items begin with a digit, on the days 1 to 9. -/
def StartsWithDigit : List Item → Prop
  | [] => False
  | item :: _ => item.startsWithDigit = true

/-- Every `%e` is as `P` says of whether white space is before it and of the items behind
it. -/
def EachDay (P : Bool → List Item → Prop) : (spaced : Bool) → List Item → Prop
  | _, [] => True
  | spaced, item :: items => (item = .spec .e → P spaced items) ∧ EachDay P item.isSpace items

/-- A day with a blank is skipped to, and ends where the number does. -/
def ShortDayRead (strict spaced : Bool) (items : List Item) : Prop :=
  strict = false ∧ spaced = true ∧ ¬StartsWithDigit items

theorem skipped_of_first {c : Char} (hc : isSpace c = false) (strict spaced : Bool)
    (rest : List Char) : skipped strict spaced (c :: rest) = c :: rest := by
  unfold skipped
  split
  · rw [List.dropWhile_cons_of_neg (by simp [hc])]
  · rfl

theorem noDigitFirst_outputs {t : ExtendedTime} (ht : t.Printable) (hday : t.mday < 10)
    (items : List Item) : NoDigitFirst (outputs t items) ↔ ¬StartsWithDigit items := by
  cases items with
  | nil =>
      constructor
      · exact fun _ h => h
      · rintro - c rest hnil
        cases hnil
  | cons item items =>
      obtain ⟨c, own, hown, -, hdigit⟩ := item.first ht
      rw [outputs_cons, hown, List.cons_append]
      show _ ↔ ¬item.startsWithDigit = true
      rw [← hdigit hday]
      constructor
      · intro hnone
        rw [hnone c _ rfl]
        exact Bool.false_ne_true
      · intro hc c' rest heq
        obtain ⟨rfl, -⟩ := List.cons.inj heq
        exact Bool.eq_false_iff.mpr hc

/-! ## Reading everything back -/

theorem readSpec_e (strict : Bool) (value : List Char) (tm : ExtendedTime) :
    readSpec strict 'e' value tm =
      readField 2 (fun n => 1 ≤ n ∧ n ≤ 31) "day of month expected but not found"
        (fun t n => { t with mday := n }) strict value tm := rfl

theorem readSpec_short_day {t : ExtendedTime} (ht : t.Printable) (hday : t.mday < 10)
    {rest : List Char} (hrest : NoDigitFirst rest) (tm : ExtendedTime) :
    readSpec false 'e' (digitChar t.mday :: rest) tm = .ok (rest, { tm with mday := t.mday }) := by
  obtain ⟨hdigit, hvalue⟩ := digitChar_spec t.mday hday
  have hscan : scanDigits 2 0 (digitChar t.mday :: rest) = (t.mday, 1, rest) := by
    rw [scanDigits, if_pos hdigit, scanDigits_of_noDigitFirst hrest, hvalue, Nat.zero_mul,
      Nat.zero_add]
  have hrange : decide (1 ≤ t.mday ∧ t.mday ≤ 31) = true :=
    decide_eq_true ⟨ht.mday_pos, ht.mday⟩
  rw [readSpec_e, readField, readNumber_lenient hdigit, hscan]
  exact if_pos hrange

/-- White space is read together with the white space behind it. -/
theorem readLiteral_space {c : Char} (hc : isSpace c = true) (spaced : Bool)
    (rest : List Char) :
    readLiteral false c (skipped false spaced (c :: rest)) = .ok (rest.dropWhile isSpace) := by
  have hdrop : (skipped false spaced (c :: rest)).dropWhile isSpace = rest.dropWhile isSpace := by
    unfold skipped
    split
    · rw [List.dropWhile_idempotent, List.dropWhile_cons_of_pos hc]
    · rw [List.dropWhile_cons_of_pos hc]
  rw [readLiteral.eq_def, if_pos ⟨rfl, hc⟩, hdrop]

/-- One item is read from its place to the place of the next. -/
theorem Item.read_skipped {t : ExtendedTime} (ht : t.Printable) {strict spaced : Bool}
    {item : Item} {items : List Item}
    (h : item = .spec .e → 10 ≤ t.mday ∨ ShortDayRead strict spaced items) (tm : ExtendedTime) :
    item.read strict (skipped strict spaced (outputs t (item :: items))) tm =
      .ok (skipped strict item.isSpace (outputs t items), item.copy t tm) := by
  by_cases hspace : strict = false ∧ item.isSpace = true
  · obtain ⟨rfl, hspace⟩ := hspace
    cases item with
    | spec s => cases hspace
    | literal l =>
        show (readLiteral false l.char (skipped false spaced (l.char :: outputs t items))).map _ = _
        rw [readLiteral_space hspace, skipped, if_pos ⟨rfl, hspace⟩]
        rfl
  · rw [show skipped strict item.isSpace (outputs t items) = outputs t items from if_neg hspace]
    by_cases hshort : item = .spec .e ∧ t.mday < 10
    · obtain ⟨rfl, hday⟩ := hshort
      obtain ⟨rfl, rfl, hnone⟩ := (h rfl).resolve_left (by omega)
      have hvalue : skipped false true (outputs t (.spec .e :: items)) =
          digitChar t.mday :: outputs t items := by
        have hdigit := (digitChar_spec t.mday hday).1
        rw [outputs_cons]
        show (Specifier.e.output t ++ outputs t items).dropWhile Gears.isSpace = _
        rw [output_e_short hday]
        exact skipped_of_first (not_isSpace_of_isDigit hdigit) false true _
      rw [hvalue]
      exact readSpec_short_day ht hday ((noDigitFirst_outputs ht hday items).mpr hnone) tm
    · have he : item = .spec .e → 10 ≤ t.mday := by
        intro he
        exact Nat.le_of_not_lt fun hday => hshort ⟨he, hday⟩
      have hown : skipped strict spaced (outputs t (item :: items)) = outputs t (item :: items) := by
        cases strict with
        | true => exact if_neg (by simp)
        | false =>
            obtain ⟨c, own, hfirst, hblank, -⟩ := item.first ht
            rw [outputs_cons, hfirst]
            apply skipped_of_first
            apply hblank _ he
            exact Bool.eq_false_iff.mpr fun hs => hspace ⟨rfl, hs⟩
      rw [hown]
      exact Item.read_output ht hspace he items tm

/-- All items are read where they were written. -/
theorem fromStr_outputs {t : ExtendedTime} (ht : t.Printable) {strict spaced : Bool}
    {items : List Item} (h : 10 ≤ t.mday ∨ EachDay (ShortDayRead strict) spaced items)
    (tm : ExtendedTime) :
    fromStr_ strict (formatOf items) (skipped strict spaced (outputs t items)) tm =
      .ok (items.foldl (Item.copy t) tm) := by
  induction items generalizing spaced tm with
  | nil => rfl
  | cons item items ih =>
      have hread : item.read strict (skipped strict spaced (outputs t (item :: items))) tm =
          .ok (skipped strict item.isSpace (outputs t items), item.copy t tm) :=
        Item.read_skipped ht (fun he => h.imp_right fun hday => hday.1 he) tm
      rw [fromStr_formatOf, hread]
      exact ih (h.imp_right And.right) (item.copy t tm)

/-- `format` gives what the items write. -/
theorem format_formatOf {t : ExtendedTime} (ht : t.Printable) {items : List Item}
    (hcovers : Covers items) (hfits : (outputs t items).length ≤ 255) :
    t.format (formatOf items) = some (outputs t items) := by
  have hnonempty : (outputs t items).length ≠ 0 := by
    obtain ⟨item, hmem, -⟩ := hcovers .year
    obtain ⟨before, behind, rfl⟩ := List.append_of_mem hmem
    obtain ⟨c, own, hown, -⟩ := item.first ht
    unfold outputs
    rw [List.flatMap_append, List.flatMap_cons, hown]
    simp
  have hroom : 0 + (outputs t items).length ≤ 256 := by omega
  rw [format, toStr_eq t (formatOf items) (Nat.zero_le _), expansion_formatOf, Option.filter_some,
    if_pos (by simpa using hroom), Option.filter_some, if_pos (by simpa using hnonempty)]

/-! ## The reader behind a misread day -/

/-- The reader is where the items were written, or a digit ahead. -/
def Position (t : ExtendedTime) (strict spaced : Bool) (items : List Item)
    (value : List Char) : Prop :=
  value = skipped strict spaced (outputs t items) ∨
    ∃ x : Char, x.isDigit = true ∧ outputs t items = x :: value

/-- A number that is a digit short takes one from what follows. -/
theorem readField_short {digits text : List Char} (hdigits : ∀ c ∈ digits, c.isDigit = true)
    {inRange : Nat → Bool} {error : String} {store : ExtendedTime → Nat → ExtendedTime}
    {strict : Bool} {rest : List Char} {tm tm' : ExtendedTime}
    (h : readField (digits.length + 1) inRange error store strict (digits ++ text) tm =
      .ok (rest, tm')) :
    ∃ n, inRange n = true ∧ tm' = store tm n ∧
      (NoDigitFirst text ∧ rest = text ∧ n = digitsValue 0 digits ∨
        ∃ c, text = c :: rest ∧ c.isDigit = true ∧
          n = digitsValue 0 digits * 10 + digitValue c) := by
  obtain ⟨n, hread, hrange, hstore⟩ := readField_eq_ok h
  obtain ⟨-, hnumber, hrest⟩ := readNumber_eq_some hread
  refine ⟨n, hrange, hstore, ?_⟩
  rcases scanDigits_short hdigits 0 text with ⟨hnone, hscan⟩ | ⟨c, rest', htext, hc, hscan⟩
  · rw [hscan] at hnumber hrest
    exact Or.inl ⟨hnone, hrest.symm, hnumber.symm⟩
  · rw [hscan] at hnumber hrest
    obtain rfl : rest' = rest := hrest
    exact Or.inr ⟨c, htext, hc, hnumber.symm⟩

/-- Behind such a number the reader is at its place or a digit ahead. -/
theorem Position.of_short {t : ExtendedTime} {strict : Bool} {items : List Item}
    {rest : List Char} {P : Prop} {Q : Char → Prop}
    (h : NoDigitFirst (outputs t items) ∧ rest = outputs t items ∧ P ∨
      ∃ c, outputs t items = c :: rest ∧ c.isDigit = true ∧ Q c) :
    Position t strict false items rest := by
  rcases h with ⟨-, rfl, -⟩ | ⟨c, htext, hc, -⟩
  · exact Or.inl (if_neg (by simp)).symm
  · exact Or.inr ⟨c, hc, htext⟩

/-- A day that is misread is at most the 3rd, and becomes a day of two digits. -/
theorem Position.read_short_day {t : ExtendedTime} (ht : t.Printable) (hday : t.mday < 10)
    {strict spaced : Bool} {items : List Item} {rest : List Char} {tm tm' : ExtendedTime}
    (hread : readSpec strict 'e' (skipped strict spaced (' ' :: digitChar t.mday :: outputs t items))
      tm = .ok (rest, tm')) :
    Position t strict false items rest ∧ strict = false ∧ spaced = true ∧
      (StartsWithDigit items → t.mday ≤ 3 ∧ ∃ x < 10, tm'.mday = t.mday * 10 + x) := by
  obtain ⟨hdigit, hvalue⟩ := digitChar_spec t.mday hday
  rw [readSpec_e] at hread
  by_cases hskip : strict = false ∧ spaced = true
  · -- the blank is skipped with the white space before it, and one digit is left
    have hdrop : skipped strict spaced (' ' :: digitChar t.mday :: outputs t items) =
        [digitChar t.mday] ++ outputs t items := by
      obtain ⟨rfl, rfl⟩ := hskip
      exact skipped_of_first (not_isSpace_of_isDigit hdigit) false true _
    have hdigits : ∀ c ∈ [digitChar t.mday], c.isDigit = true := by simp [hdigit]
    have hone : digitsValue 0 [digitChar t.mday] = t.mday := by
      simp [digitsValue, hvalue]
    rw [hdrop] at hread
    obtain ⟨n, hrange, rfl, hshort⟩ := readField_short hdigits hread
    refine ⟨Position.of_short hshort, hskip.1, hskip.2, ?_⟩
    intro hstarts
    rcases hshort with ⟨hnone, -, -⟩ | ⟨c, -, hc, hn⟩
    · exact absurd hstarts ((noDigitFirst_outputs ht hday items).mp hnone)
    · have hle : 1 ≤ n ∧ n ≤ 31 := of_decide_eq_true hrange
      rw [hone] at hn
      exact ⟨by omega, digitValue c, digitValue_lt hc, hn⟩
  · -- the blank is no digit
    obtain ⟨n, hnumber, -⟩ := readField_eq_ok hread
    obtain ⟨hfirst, -, -⟩ := readNumber_eq_some hnumber
    rw [skipped, if_neg hskip] at hfirst
    exfalso
    apply hfirst
    rintro c rest' heq
    obtain ⟨rfl, -⟩ := List.cons.inj heq
    decide

/-- Of the digits `03` the reader that is one ahead finds March or none. -/
theorem march_ahead {t : ExtendedTime} (hmon : t.mon = 2) {strict : Bool} {c : Char}
    {own text rest : List Char} {tm tm' : ExtendedTime}
    (hown : Specifier.m.output t = c :: own)
    (hread : readSpec strict 'm' (own ++ text) tm = .ok (rest, tm')) : tm'.mon = 2 := by
  have hthree : Specifier.m.output t = ['0', '3'] := by
    show fixedDigits 2 (t.mon + 1) = _
    rw [hmon]
    decide
  obtain ⟨-, rfl⟩ := List.cons.inj (hown.symm.trans hthree)
  have hfield : readField 2 (fun n => 1 ≤ n ∧ n ≤ 12) "month number expected but not found"
      (fun t n => { t with mon := n - 1 }) strict (['3'] ++ text) tm = .ok (rest, tm') := hread
  have hdigits : ∀ c ∈ ['3'], c.isDigit = true := by
    intro c hc
    obtain rfl := List.mem_singleton.mp hc
    rfl
  obtain ⟨n, hrange, rfl, hshort⟩ := readField_short hdigits hfield
  have hle : 1 ≤ n ∧ n ≤ 12 := of_decide_eq_true hrange
  have hone : digitsValue 0 ['3'] = 3 := by decide
  rw [hone] at hshort
  have hn : n = 3 := by
    rcases hshort with ⟨-, -, hn⟩ | ⟨c, -, -, hn⟩
    · exact hn
    · omega
  rw [hn]

/-- An item that the reader enters a digit ahead. -/
theorem Position.step_ahead {t : ExtendedTime} (ht : t.Printable) (hday : t.mday < 10)
    {strict : Bool} {item : Item} {items : List Item} {x : Char} {value rest : List Char}
    {tm tm' : ExtendedTime} (hx : x.isDigit = true)
    (hvalue : outputs t (item :: items) = x :: value)
    (hread : item.read strict value tm = .ok (rest, tm')) :
    Position t strict item.isSpace items rest ∧ item ≠ .spec .e ∧
      (t.mon = 2 → item.field = some .month → tm'.mon = 2) := by
  obtain ⟨c, own, hown, -, hdigit⟩ := item.first ht
  rw [outputs_cons, hown] at hvalue
  obtain ⟨rfl, rfl⟩ := List.cons.inj hvalue
  rw [hx] at hdigit
  have hstarts : item.startsWithDigit = true := (hdigit hday).symm
  cases item with
  | literal l =>
      obtain ⟨rfl, rfl⟩ := List.cons.inj hown
      have hspace : isSpace l.char = false := not_isSpace_of_isDigit hx
      refine ⟨?_, nofun, nofun⟩
      change (readLiteral strict l.char (outputs t items)).map _ = _ at hread
      rw [readLiteral.eq_def, if_neg (by simp [hspace])] at hread
      cases htext : outputs t items with
      | nil =>
          rw [htext] at hread
          cases hread
      | cons c text =>
          rw [htext] at hread
          by_cases hc : c = l.char
          · simp only [if_pos hc] at hread
            obtain ⟨rfl, -⟩ := Prod.mk.inj (Except.ok.inj hread)
            subst hc
            exact Or.inr ⟨l.char, hx, htext⟩
          · simp only [if_neg hc] at hread
            cases hread
  | spec s =>
      have hnumeric : s.numeric = true := hstarts
      change readSpec strict s.char (own ++ outputs t items) tm = _ at hread
      refine ⟨?_, ?_, ?_⟩
      · obtain ⟨size, n, h⟩ := Specifier.digits_of_numeric ht hnumeric
        obtain ⟨c', own', hown', hlength, -, hdigits⟩ := h.first
        obtain ⟨-, rfl⟩ := List.cons.inj (hown.symm.trans hown')
        obtain ⟨inRange, error, store, -, -, hfield⟩ := h.read
        rw [hfield, ← hlength] at hread
        obtain ⟨m, -, -, hshort⟩ := readField_short hdigits hread
        exact Position.of_short hshort
      · intro he
        obtain rfl : s = .e := Item.spec.inj he
        cases hnumeric
      · intro hmon hfield
        cases s with
        | m => exact march_ahead hmon hown hread
        | b | B | h => cases hnumeric
        | _ => cases hfield

/-- What holds of every `%e` of a format that reads a short day back: it is skipped to, and
where a digit follows the day is at most the 3rd and is given once more. -/
def ShortDayPassed (t : ExtendedTime) (strict spaced : Bool) (items : List Item) : Prop :=
  strict = false ∧ spaced = true ∧
    (StartsWithDigit items → t.mday ≤ 3 ∧ ∃ item ∈ items, item.field = some .day)

theorem Position.step {t : ExtendedTime} (ht : t.Printable) (hday : t.mday < 10)
    {strict spaced : Bool} {item : Item} {items : List Item} {value rest : List Char}
    {tm tm' : ExtendedTime} (h : Position t strict spaced (item :: items) value)
    (hread : item.read strict value tm = .ok (rest, tm')) :
    Position t strict item.isSpace items rest ∧
      (item = .spec .e → strict = false ∧ spaced = true ∧
        (StartsWithDigit items → t.mday ≤ 3 ∧ ∃ x < 10, tm'.mday = t.mday * 10 + x)) ∧
      (t.mon = 2 → item.field = some .month → tm'.mon = 2) := by
  rcases h with rfl | ⟨x, hx, hvalue⟩
  · -- in its place the reader reads each item but a short day
    by_cases he : item = .spec .e
    · subst he
      have hshort : outputs t (.spec .e :: items) = ' ' :: digitChar t.mday :: outputs t items := by
        rw [outputs_cons]
        show Specifier.e.output t ++ outputs t items = _
        rw [output_e_short hday]
        rfl
      rw [hshort] at hread
      obtain ⟨hposition, hpassed⟩ := Position.read_short_day ht hday hread
      exact ⟨hposition, fun _ => hpassed, nofun⟩
    · rw [Item.read_skipped ht (fun h => absurd h he)] at hread
      obtain ⟨rfl, rfl⟩ := Prod.mk.inj (Except.ok.inj hread)
      refine ⟨Or.inl rfl, fun h => absurd h he, fun hmon hfield => ?_⟩
      have hcopied := Item.get_copy t tm item .month
      rw [if_pos hfield] at hcopied
      exact hcopied.trans hmon
  · -- a digit ahead it reads no `%e`, which begins with a blank
    obtain ⟨hposition, he, hmonth⟩ := Position.step_ahead ht hday hx hvalue hread
    exact ⟨hposition, fun h => absurd h he, hmonth⟩

/-! ## Runs of the reader -/

/-- `from_str_` knows only the specifiers. -/
theorem exists_specifier {strict : Bool} {spec : Char} {text : List Char} {t : ExtendedTime}
    {p : List Char × ExtendedTime} (h : readSpec strict spec text t = .ok p) :
    ∃ s : Specifier, s.char = spec := by
  unfold readSpec at h
  split at h
  · exact ⟨.percent, rfl⟩
  · exact ⟨.a, rfl⟩
  · exact ⟨.A, rfl⟩
  · exact ⟨.b, rfl⟩
  · exact ⟨.B, rfl⟩
  · exact ⟨.h, rfl⟩
  · exact ⟨.d, rfl⟩
  · exact ⟨.e, rfl⟩
  · exact ⟨.H, rfl⟩
  · exact ⟨.m, rfl⟩
  · exact ⟨.M, rfl⟩
  · exact ⟨.q, rfl⟩
  · exact ⟨.S, rfl⟩
  · exact ⟨.Y, rfl⟩
  · cases h

/-- An item keeps the fields in range. -/
theorem Item.read_inRange {strict : Bool} {text rest : List Char} {tm tm' : ExtendedTime}
    {item : Item} (h : item.read strict text tm = .ok (rest, tm'))
    (htm : ∀ f : Field, f.inRange (f.get tm) = true) :
    ∀ f : Field, f.inRange (f.get tm') = true := by
  intro f
  rcases Item.read_eq_ok h with ⟨-, rfl⟩ | ⟨g, n, -, hrange, rfl⟩
  · exact htm f
  · rw [Field.get_set]
    split
    · rename_i hsame
      rw [← hsame]
      exact hrange
    · exact htm f

/-- What is read is in range. -/
theorem fromStr_inRange {strict : Bool} {fmt text : List Char} {tm tm' : ExtendedTime}
    (h : fromStr_ strict fmt text tm = .ok tm')
    (htm : ∀ f : Field, f.inRange (f.get tm) = true) :
    ∀ f : Field, f.inRange (f.get tm') = true := by
  induction fmt, text, tm using fromStr_.induct with
  | case1 text tm =>
      obtain rfl := Except.ok.inj h
      exact htm
  | case2 text tm => cases h
  | case3 text tm spec fmt ih =>
      rw [fromStr_, if_pos rfl] at h
      cases hread : readSpec strict spec text tm with
      | error error =>
          rw [hread] at h
          cases h
      | ok p =>
          rw [hread] at h
          obtain ⟨s, rfl⟩ := exists_specifier hread
          have hitem : Item.read strict text tm (.spec s) = .ok (p.1, p.2) := hread
          exact ih p.1 p.2 h (Item.read_inRange hitem htm)
  | case4 ch fmt text tm hpercent ih =>
      rw [fromStr_.eq_def] at h
      simp only [if_neg hpercent] at h
      cases hread : readLiteral strict ch text with
      | error error =>
          rw [hread] at h
          cases h
      | ok rest =>
          rw [hread] at h
          exact ih rest h htm

section Runs

variable {strict : Bool} {items : List Item} {value : List Char} {tm tm' : ExtendedTime}

theorem fromStr_eq_ok {item : Item}
    (h : fromStr_ strict (formatOf (item :: items)) value tm = .ok tm') :
    ∃ rest mid, item.read strict value tm = .ok (rest, mid) ∧
      fromStr_ strict (formatOf items) rest mid = .ok tm' := by
  rw [fromStr_formatOf] at h
  cases hitem : item.read strict value tm with
  | error e =>
      rw [hitem] at h
      cases h
  | ok p =>
      rw [hitem] at h
      exact ⟨p.1, p.2, rfl, h⟩

/-- The fields that `Time::set` begins with. -/
theorem epoch_inRange (f : Field) : f.inRange (f.get (ExtendedTime.ofTime 0 0)) = true := by
  cases f <;> decide +kernel

/-- A field that no item gives stays as it is. -/
theorem fromStr_frame (h : fromStr_ strict (formatOf items) value tm = .ok tm') {f : Field}
    (hf : ∀ item ∈ items, item.field ≠ some f) : f.get tm' = f.get tm := by
  induction items generalizing value tm with
  | nil =>
      obtain rfl := Except.ok.inj h
      rfl
  | cons item items ih =>
      obtain ⟨rest, mid, hitem, hrest⟩ := fromStr_eq_ok h
      obtain ⟨hnot, hothers⟩ := List.forall_mem_cons.mp hf
      rw [ih hrest hothers]
      rcases Item.read_eq_ok hitem with ⟨-, rfl⟩ | ⟨g, n, hgives, -, rfl⟩
      · rfl
      · rw [Field.get_set, if_neg]
        rintro rfl
        exact hnot hgives

/-- March is read as March, also a digit ahead. -/
theorem Position.march {t : ExtendedTime} (ht : t.Printable) (hday : t.mday < 10)
    (hmon : t.mon = 2) {spaced : Bool} (h : Position t strict spaced items value)
    (hread : fromStr_ strict (formatOf items) value tm = .ok tm')
    (htm : tm.mon = 2 ∨ ∃ item ∈ items, item.field = some .month) : tm'.mon = 2 := by
  induction items generalizing spaced value tm with
  | nil =>
      obtain rfl := Except.ok.inj hread
      rcases htm with hmarch | ⟨item, hmem, -⟩
      · exact hmarch
      · cases hmem
  | cons item items ih =>
      obtain ⟨rest, mid, hitem, hrest⟩ := fromStr_eq_ok hread
      obtain ⟨hposition, -, hmonth⟩ := h.step ht hday hitem
      apply ih hposition hrest
      by_cases hfield : item.field = some .month
      · exact Or.inl (hmonth hmon hfield)
      · have hkept : mid.mon = tm.mon := by
          rcases Item.read_eq_ok hitem with ⟨-, rfl⟩ | ⟨g, n, hgives, -, rfl⟩
          · rfl
          · have hget := Field.get_set tm n .month g
            rwa [if_neg (by rintro rfl; exact hfield hgives)] at hget
        rw [hkept]
        refine htm.imp_right ?_
        rintro ⟨item', hmem, hgives⟩
        rcases List.mem_cons.mp hmem with rfl | hmem
        · exact absurd hgives hfield
        · exact ⟨item', hmem, hgives⟩

/-- When the day at the end is not a misread one, every `%e` has been passed. -/
theorem Position.eachDay {t : ExtendedTime} (ht : t.Printable) (hday : t.mday < 10)
    {spaced : Bool} (h : Position t strict spaced items value)
    (hread : fromStr_ strict (formatOf items) value tm = .ok tm')
    (hright : ∀ x < 10, tm'.mday ≠ t.mday * 10 + x) :
    EachDay (ShortDayPassed t strict) spaced items := by
  induction items generalizing spaced value tm with
  | nil => trivial
  | cons item items ih =>
      obtain ⟨rest, mid, hitem, hrest⟩ := fromStr_eq_ok hread
      obtain ⟨hposition, hpassed, -⟩ := h.step ht hday hitem
      refine ⟨fun he => ?_, ih hposition hrest⟩
      obtain ⟨hstrict, hspaced, hmisread⟩ := hpassed he
      refine ⟨hstrict, hspaced, fun hstarts => ?_⟩
      obtain ⟨hle, x, hx, hwrong⟩ := hmisread hstarts
      refine ⟨hle, ?_⟩
      by_contra hnone
      -- no later item gives the day, so that the misread one is the last
      have hkept : tm'.mday = mid.mday :=
        fromStr_frame hrest (f := .day) fun item hmem hgives => hnone ⟨item, hmem, hgives⟩
      exact hright x hx (hkept.trans hwrong)

end Runs

/-- A misread day does not stand for the same date, unless the month is wrong as well. -/
theorem misread_day_ne {t tm : ExtendedTime} (ht : t.Printable)
    (htm : ∀ f : Field, f.inRange (f.get tm) = true) (hsame : gmToTime tm = gmToTime t)
    (hmarch : t.mon = 2 → tm.mon = 2) {x : Nat} (hx : x < 10) :
    tm.mday ≠ t.mday * 10 + x := by
  intro hwrong
  have hsec : tm.sec ≤ 59 := of_decide_eq_true (htm .second)
  have hmin : tm.min ≤ 59 := of_decide_eq_true (htm .minute)
  have hhour : tm.hour ≤ 23 := of_decide_eq_true (htm .hour)
  have hmon : tm.mon < 12 := of_decide_eq_true (htm .month)
  have hmday : 1 ≤ tm.mday ∧ tm.mday ≤ 31 := of_decide_eq_true (htm .day)
  have hpos := ht.mday_pos
  -- one date with two such days: a February that runs over into March
  have hnumber : dayNumber tm = dayNumber t :=
    dayNumber_of_gmToTime hsame ⟨ht.sec, by omega⟩ ⟨ht.min, by omega⟩ ⟨ht.hour, by omega⟩
  obtain ⟨hfebruary, hmonth⟩ :=
    february_of_dayNumber hnumber ⟨ht.mon, hmon⟩ hpos (by omega) (by omega)
  have hmarch' := hmarch hmonth
  omega

end ExtendedTime

/-! ## Times -/

namespace Time

open ExtendedTime

/-- `Time::set(t.get_gm_time().format(fmt), fmt, strict)` succeeds and gives `t`. -/
def RoundTrips (t : Time) (items : List Item) (strict : Bool) : Prop :=
  ∃ out, t.getGmTime.format (formatOf items) = some out ∧
    Time.set out (formatOf items) strict = .ok t

theorem getGmTime_printable {t : Time} (husec : t.tvUsec < 1000000)
    (hyear : t.getGmTime.year + 1900 ≤ 9999) : t.getGmTime.Printable := by
  have h := timeToGm_inRange t.tvSec
  exact ⟨⟨h.sec, h.min, h.hour, h.mday_pos, h.mday, h.mon, h.year, h.wday⟩, husec, hyear⟩

/-- A formatted time is parsed back when its day has two digits or every `%e` reads it back;
and when it is, then each `%e` does, but where a digit follows, the day is at most the 3rd
and the format gives it once more. -/
theorem set_format (t : Time) (items : List Item) (strict : Bool)
    (husec : t.tvUsec < 1000000) (hyear : t.getGmTime.year + 1900 ≤ 9999)
    (hcovers : Covers items) (hfits : (outputs t.getGmTime items).length ≤ 255) :
    (10 ≤ t.getGmTime.mday ∨ EachDay (ShortDayRead strict) false items →
      t.RoundTrips items strict) ∧
    (t.RoundTrips items strict →
      10 ≤ t.getGmTime.mday ∨ EachDay (ShortDayPassed t.getGmTime strict) false items) := by
  have ht : t.getGmTime.Printable := getGmTime_printable husec hyear
  have hformat := format_formatOf ht hcovers hfits
  have hstart : outputs t.getGmTime items = skipped strict false (outputs t.getGmTime items) :=
    (if_neg (by simp)).symm
  constructor
  · intro hdays
    have hread := fromStr_outputs ht hdays (ExtendedTime.ofTime 0 0)
    refine ⟨outputs t.getGmTime items, hformat, ?_⟩
    rw [Time.set, hstart, hread]
    show Except.ok _ = _
    rw [toTime_foldl_copy hcovers, toTime_getGmTime]
  · rintro ⟨out, hout, hset⟩
    obtain rfl : outputs t.getGmTime items = out := Option.some.inj (hformat.symm.trans hout)
    by_cases hday : t.getGmTime.mday < 10
    · apply Or.inr
      rw [Time.set] at hset
      cases hread : fromStr_ strict (formatOf items) (outputs t.getGmTime items)
          (ExtendedTime.ofTime 0 0) with
      | error e =>
          rw [hread] at hset
          cases hset
      | ok tm =>
          rw [hread] at hset
          have htm : tm.toTime = t := Except.ok.inj hset
          have hsame : gmToTime tm = gmToTime t.getGmTime := by
            have hsec : (tm.toTime).tvSec = t.getGmTime.toTime.tvSec := by
              rw [htm, toTime_getGmTime]
            exact hsec
          have hrange := fromStr_inRange hread epoch_inRange
          have hmarch : t.getGmTime.mon = 2 → tm.mon = 2 := fun hmon =>
            Position.march ht hday hmon (Or.inl hstart) hread (Or.inr (hcovers .month))
          exact Position.eachDay ht hday (Or.inl hstart) hread
            fun x hx => misread_day_ne ht hrange hsame hmarch hx
    · exact Or.inl (Nat.le_of_not_lt hday)

/-- `%Y-%m`, a separator, `%e %H:%M:%S.%q` -/
def stamp (separator : Literal) : List Item :=
  let literal (c : Char) (h : c.isAlpha = false) (h' : c ≠ '%') : Item := .literal ⟨c, h, h'⟩
  [.spec .Y, literal '-' rfl (by decide), .spec .m, .literal separator, .spec .e,
    literal ' ' rfl (by decide), .spec .H, literal ':' rfl (by decide), .spec .M,
    literal ':' rfl (by decide), .spec .S, literal '.' rfl (by decide), .spec .q]

theorem covers_stamp (separator : Literal) : Covers (stamp separator) := by
  intro f
  cases f with
  | year => exact ⟨.spec .Y, by simp [stamp], rfl⟩
  | month => exact ⟨.spec .m, by simp [stamp], rfl⟩
  | day => exact ⟨.spec .e, by simp [stamp], rfl⟩
  | hour => exact ⟨.spec .H, by simp [stamp], rfl⟩
  | minute => exact ⟨.spec .M, by simp [stamp], rfl⟩
  | second => exact ⟨.spec .S, by simp [stamp], rfl⟩
  | microsecond => exact ⟨.spec .q, by simp [stamp], rfl⟩

/-- The 9th of September 2001 behind a blank is parsed back. -/
theorem set_format_blank :
    RoundTrips ⟨1000000000, 5⟩ (stamp ⟨' ', rfl, by decide⟩) false :=
  (set_format ⟨1000000000, 5⟩ (stamp ⟨' ', rfl, by decide⟩) false (by decide) (by decide +kernel)
    (covers_stamp _) (by decide +kernel)).1 (Or.inr (by simp [stamp, EachDay, ShortDayRead,
      StartsWithDigit, Item.startsWithDigit, Item.isSpace, Gears.isSpace]))

/-- `2001-09- 9 01:46:40.000005` is not parsed back, in neither mode. -/
theorem dashed_day_not_parsed :
    (⟨1000000000, 5⟩ : Time).getGmTime.year + 1900 ≤ 9999 ∧
    Covers (stamp ⟨'-', rfl, by decide⟩) ∧
    (outputs (⟨1000000000, 5⟩ : Time).getGmTime (stamp ⟨'-', rfl, by decide⟩)).length ≤ 255 ∧
    ∀ strict, ¬RoundTrips ⟨1000000000, 5⟩ (stamp ⟨'-', rfl, by decide⟩) strict := by
  refine ⟨by decide +kernel, covers_stamp _, by decide +kernel, ?_⟩
  rintro strict ⟨out, hformat, hset⟩
  have hout : (⟨1000000000, 5⟩ : Time).getGmTime.format (formatOf (stamp ⟨'-', rfl, by decide⟩)) =
      some "2001-09- 9 01:46:40.000005".toList := by
    decide +kernel
  obtain rfl := Option.some.inj (hformat.symm.trans hout)
  have herror : Time.set "2001-09- 9 01:46:40.000005".toList
      (formatOf (stamp ⟨'-', rfl, by decide⟩)) strict =
        .error "day of month expected but not found" := by
    cases strict <;> decide +kernel
  rw [herror] at hset
  cases hset

end Time
end LiteMQ.Gears
