import LiteMQ.Gears.TimeNames

/-!
# Formats that both sides implement

The specifiers that `to_str_` and `from_str_` share, and the formats made of them and of
literal characters that are no letters.

A specifier of digits is written with the width that it is read with, and every
specifier but `%e` reads back what it wrote, whatever follows (`Specifier.read_output`).
`%e` writes a blank for the first digit of the days 1 to 9.
-/

namespace LiteMQ.Gears
namespace ExtendedTime

/-- The specifiers that both sides implement. -/
inductive Specifier
  | percent | a | A | b | B | h | d | e | H | m | M | q | S | Y
  deriving DecidableEq

def Specifier.char : Specifier → Char
  | percent => '%'
  | a => 'a'
  | A => 'A'
  | b => 'b'
  | B => 'B'
  | h => 'h'
  | d => 'd'
  | e => 'e'
  | H => 'H'
  | m => 'm'
  | M => 'M'
  | q => 'q'
  | S => 'S'
  | Y => 'Y'

/-- A literal character of a format. -/
structure Literal where
  char : Char
  noLetter : char.isAlpha = false
  noPercent : char ≠ '%'

inductive Item
  | spec (s : Specifier)
  | literal (l : Literal)

/-- The characters of the format. -/
def Item.chars : Item → List Char
  | .spec s => ['%', s.char]
  | .literal l => [l.char]

/-- The format string of a list of items. -/
def formatOf (items : List Item) : List Char := items.flatMap Item.chars

/-- A literal that `from_str_` takes for any white space, when it is not strict. -/
def Item.isSpace : Item → Bool
  | .spec _ => false
  | .literal l => Gears.isSpace l.char

/-! ## Output -/

def Specifier.output (t : ExtendedTime) (s : Specifier) : List Char :=
  (t.specOutput s.char).getD []

def Item.output (t : ExtendedTime) : Item → List Char
  | .spec s => s.output t
  | .literal l => [l.char]

/-- What a format writes. -/
def outputs (t : ExtendedTime) (items : List Item) : List Char := items.flatMap (Item.output t)

theorem outputs_cons (t : ExtendedTime) (item : Item) (items : List Item) :
    outputs t (item :: items) = item.output t ++ outputs t items := rfl

theorem specOutput_char (t : ExtendedTime) (s : Specifier) :
    t.specOutput s.char = some (s.output t) := by
  cases s <;> rfl

/-- The items expand to what they write. -/
theorem expansion_formatOf (t : ExtendedTime) (items : List Item) :
    expansion t (formatOf items) = some (outputs t items) := by
  induction items with
  | nil => rfl
  | cons item items ih =>
      cases item with
      | spec s =>
          show expansion t ('%' :: s.char :: formatOf items) = _
          rw [expansion, if_pos rfl]
          simp only [specOutput_char, Option.bind_some]
          rw [ih]
          rfl
      | literal l =>
          show expansion t (l.char :: formatOf items) = _
          rw [expansion.eq_def]
          simp only
          rw [if_neg l.noPercent, ih]
          rfl

/-! ## Input -/

/-- What `from_str_` does at an item. -/
def Item.read (strict : Bool) (value : List Char) (tm : ExtendedTime) :
    Item → Except String (List Char × ExtendedTime)
  | .spec s => readSpec strict s.char value tm
  | .literal l => (readLiteral strict l.char value).map fun rest => (rest, tm)

theorem fromStr_literal (strict : Bool) (l : Literal) (fmt value : List Char)
    (tm : ExtendedTime) :
    fromStr_ strict (l.char :: fmt) value tm =
      (readLiteral strict l.char value).bind fun rest => fromStr_ strict fmt rest tm := by
  rw [fromStr_.eq_def]
  exact if_neg l.noPercent

/-- `from_str_` reads the items one after the other. -/
theorem fromStr_formatOf (strict : Bool) (item : Item) (items : List Item) (value : List Char)
    (tm : ExtendedTime) :
    fromStr_ strict (formatOf (item :: items)) value tm =
      (item.read strict value tm).bind fun (rest, tm) =>
        fromStr_ strict (formatOf items) rest tm := by
  cases item with
  | spec s =>
      show fromStr_ strict ('%' :: s.char :: formatOf items) value tm = _
      rw [fromStr_, if_pos rfl]
      rfl
  | literal l =>
      show fromStr_ strict (l.char :: formatOf items) value tm = _
      rw [fromStr_literal]
      show _ = ((readLiteral strict l.char value).map _).bind _
      cases readLiteral strict l.char value <;> rfl

/-! ## The fields -/

/-- The fields that make up the time. -/
inductive Field
  | year | month | day | hour | minute | second | microsecond
  deriving DecidableEq

def Field.get (t : ExtendedTime) : Field → Nat
  | year => t.year
  | month => t.mon
  | day => t.mday
  | hour => t.hour
  | minute => t.min
  | second => t.sec
  | microsecond => t.usec

/-- The field that a specifier gives. -/
def Specifier.field : Specifier → Option Field
  | percent | a | A => none
  | b | B | h | m => some .month
  | d | e => some .day
  | H => some .hour
  | M => some .minute
  | q => some .microsecond
  | S => some .second
  | Y => some .year

def Item.field : Item → Option Field
  | .spec s => s.field
  | .literal _ => none

/-- The format has a specifier for each field. -/
def Covers (items : List Item) : Prop := ∀ f : Field, ∃ item ∈ items, item.field = some f

def Field.set (tm : ExtendedTime) (n : Nat) : Field → ExtendedTime
  | year => { tm with year := n }
  | month => { tm with mon := n }
  | day => { tm with mday := n }
  | hour => { tm with hour := n }
  | minute => { tm with min := n }
  | second => { tm with sec := n }
  | microsecond => { tm with usec := n }

/-- `tm` with the field of `t` that the item gives. -/
def Item.copy (t tm : ExtendedTime) (item : Item) : ExtendedTime :=
  match item.field with
  | none => tm
  | some f => f.set tm (f.get t)

theorem Field.get_set (tm : ExtendedTime) (n : Nat) (f g : Field) :
    f.get (g.set tm n) = if g = f then n else f.get tm := by
  cases f <;> cases g <;> rfl

theorem Item.get_copy (t tm : ExtendedTime) (item : Item) (f : Field) :
    f.get (item.copy t tm) = if item.field = some f then f.get t else f.get tm := by
  unfold Item.copy
  cases item.field with
  | none => rfl
  | some g =>
      simp only [Field.get_set, Option.some.injEq]
      split
      · rename_i hsame
        rw [hsame]
      · rfl

/-- The values that `from_str_` takes for a field. -/
def Field.inRange (n : Nat) : Field → Bool
  | year => 70 ≤ n
  | month => n < 12
  | day => 1 ≤ n ∧ n ≤ 31
  | hour => n ≤ 23
  | minute | second => n ≤ 59
  | microsecond => n < 1000000

/-- A field that an item gives is that of `t` at the end. -/
theorem get_foldl_copy (t : ExtendedTime) (f : Field) (items : List Item) (tm : ExtendedTime)
    (h : f.get tm = f.get t ∨ ∃ item ∈ items, item.field = some f) :
    f.get (items.foldl (Item.copy t) tm) = f.get t := by
  induction items generalizing tm with
  | nil =>
      rcases h with hsame | ⟨item, hmem, -⟩
      · exact hsame
      · cases hmem
  | cons item items ih =>
      apply ih
      rw [Item.get_copy]
      by_cases hfield : item.field = some f
      · exact Or.inl (if_pos hfield)
      · rw [if_neg hfield]
        refine h.imp_right ?_
        rintro ⟨item', hmem, hgives⟩
        rcases List.mem_cons.mp hmem with rfl | hmem
        · exact absurd hgives hfield
        · exact ⟨item', hmem, hgives⟩

/-- `gm_to_time` looks at the fields only. -/
theorem toTime_of_fields {t tm : ExtendedTime} (h : ∀ f : Field, f.get tm = f.get t) :
    tm.toTime = t.toTime := by
  have hyear := h .year
  have hmonth := h .month
  have hday := h .day
  have hhour := h .hour
  have hminute := h .minute
  have hsecond := h .second
  have husec := h .microsecond
  simp only [Field.get] at hyear hmonth hday hhour hminute hsecond husec
  simp only [toTime, gmToTime, hyear, hmonth, hday, hhour, hminute, hsecond, husec]

/-- A format that covers the fields gives the time back. -/
theorem toTime_foldl_copy {items : List Item} (hcovers : Covers items) (t tm : ExtendedTime) :
    (items.foldl (Item.copy t) tm).toTime = t.toTime :=
  toTime_of_fields fun f => get_foldl_copy t f items tm (Or.inr (hcovers f))

theorem toTime_getGmTime (t : Time) : t.getGmTime.toTime = t := by
  show Time.mk (gmToTime (timeToGm t.tvSec)) t.tvUsec = t
  rw [gmToTime_timeToGm]

end ExtendedTime
end LiteMQ.Gears
