import LiteMQ.Gears.Flatten
import Mathlib.Data.List.DropRight
import Mathlib.Logic.Function.Basic

/-!
# Character categories

A category is a table of 256 flags, built from an expression such as `A-Za-z_`.  A dash
stands for a range unless it is the first or the last character, or itself the end of a
range; a range goes on behind the last character value until it meets its end.

`ofExpression_iff` says which characters the table has, by the places of the expression.
`trim` cuts off what is in a category on both sides (`trim_eq`).
-/

namespace LiteMQ.Gears.Ascii

/-! ## The source -/

/-- `CharTable`: `table_[static_cast<uint8_t>(ch)]`. -/
abbrev CharTable : Type := UInt8 → Bool

namespace CharTable

/-- One character further from the start is one nearer, around the end of the values. -/
theorem toNat_sub_succ (a b : UInt8) : (a - (b + 1)).toNat = ((a - b).toNat + 255) % 256 := by
  have ha := a.toNat_lt
  have hb := b.toNat_lt
  rw [UInt8.toNat_sub, UInt8.toNat_sub, UInt8.toNat_add, UInt8.toNat_one]
  omega

theorem toNat_sub_eq_zero {a b : UInt8} : (a - b).toNat = 0 ↔ a = b := by
  have ha := a.toNat_lt
  have hb := b.toNat_lt
  rw [← UInt8.toNat_inj, UInt8.toNat_sub]
  omega

/-- `for (char ch = last; ; ch++)` of a range, as far as it has not met `till`. -/
def fillRange (table : CharTable) (ch till : UInt8) : CharTable :=
  if ch = till then Function.update table ch true
  else fillRange (Function.update table ch true) (ch + 1) till
termination_by (till - ch).toNat
decreasing_by
  rename_i hne
  have hpos : (till - ch).toNat ≠ 0 := fun h => hne (toNat_sub_eq_zero.mp h).symm
  have hlt := (till - ch).toNat_lt
  rw [toNat_sub_succ]
  omega

/-- The loop over the expression, where `last` is the character before. -/
def expressionLoop : (str : List UInt8) → (last : UInt8) → CharTable → CharTable
  | [], _, table => table
  | [ch], _, table => Function.update table ch true
  | ch :: next :: str, last, table =>
      if ch = '-'.toUInt8 ∧ last ≠ 0 then
        expressionLoop str next (fillRange table last next)
      else expressionLoop (next :: str) ch (Function.update table ch true)

/-- The constructor from an expression; no expression is the null pointer. -/
def ofExpression (str : Option (List UInt8)) (checkZero : Bool) : CharTable :=
  let table : CharTable := fun ch => checkZero && ch == 0
  match str with
  | none => table
  | some str => expressionLoop str 0 table

end CharTable

/-- `while(trim_set(*--end)); ++end`, from `end` down. -/
def trimEnd (trimSet : CharTable) (str : List UInt8) : (last : Nat) → Except Fault Nat
  | 0 => .error .outOfBounds
  | last + 1 => do
      let ch ← Buffer.load str last
      if trimSet ch then trimEnd trimSet str last else .ok (last + 1)

/-- `StringManip::trim` -/
def trim (trimSet : CharTable) (str : List UInt8) : Except Fault (List UInt8) := do
  let first := str.length - (findNonowned trimSet str).length
  if first ≠ str.length then do
    let last ← trimEnd trimSet str str.length
    .ok (Buffer.slice str first last)
  else .ok (Buffer.slice str first str.length)

/-! ## Expressions -/

namespace CharTable

/-- The place of an expression holds a dash that stands for a range. -/
def rangeDash (str : List UInt8) : Nat → Bool
  | 0 => false
  | i + 1 => str[i + 1]? == some '-'.toUInt8 && i + 2 < str.length && !rangeDash str i

/-- The character lies between the two, going up from the first one. -/
def Between (first last ch : UInt8) : Prop := ch - first ≤ last - first

/-- What the place of an expression stands for. -/
def Describes (str : List UInt8) (i : Nat) (ch : UInt8) : Prop :=
  if rangeDash str i = true then
    ∃ first last, str[i - 1]? = some first ∧ str[i + 1]? = some last ∧ Between first last ch
  else str[i]? = some ch

theorem fillRange_eq (table : CharTable) (first last ch : UInt8) :
    fillRange table first last ch = true ↔ table ch = true ∨ Between first last ch := by
  induction table, first using fillRange.induct last with
  | case1 table =>
      rw [fillRange, if_pos rfl, Between, UInt8.le_iff_toNat_le, toNat_sub_eq_zero.mpr rfl,
        Nat.le_zero, toNat_sub_eq_zero]
      by_cases hch : ch = last
      · simp [hch]
      · simp [hch]
  | case2 table first hne ih =>
      have hlast : (last - first).toNat ≠ 0 := fun h => hne (toNat_sub_eq_zero.mp h).symm
      have hlt := (ch - first).toNat_lt
      have hlt' := (last - first).toNat_lt
      rw [fillRange, if_neg hne, ih, Between, Between, UInt8.le_iff_toNat_le,
        UInt8.le_iff_toNat_le, toNat_sub_succ, toNat_sub_succ]
      by_cases hch : ch = first
      · have hzero := toNat_sub_eq_zero.mpr hch
        simp [hch]
      · have hpos : (ch - first).toNat ≠ 0 := fun h => hch (toNat_sub_eq_zero.mp h)
        rw [Function.update_of_ne hch]
        refine or_congr Iff.rfl ?_
        omega

/-- The first place from `n` on, and those behind it. -/
theorem exists_place {n size : Nat} (hn : n < size) (property : Nat → Prop) :
    (∃ i, n ≤ i ∧ i < size ∧ property i) ↔
      property n ∨ ∃ i, n + 1 ≤ i ∧ i < size ∧ property i := by
  constructor
  · rintro ⟨i, hle, hlt, hi⟩
    rcases Nat.eq_or_lt_of_le hle with rfl | hnext
    · exact Or.inl hi
    · exact Or.inr ⟨i, hnext, hlt, hi⟩
  · rintro (hn' | ⟨i, hle, hlt, hi⟩)
    · exact ⟨n, le_rfl, hn, hn'⟩
    · exact ⟨i, by omega, hlt, hi⟩

section

variable {str before rest : List UInt8} {ch₀ next last : UInt8}

/-- The loop takes a dash for a range where the expression has one. -/
theorem rangeDash_iff (hstr : 0 ∉ str) (hsplit : str = before ++ ch₀ :: next :: rest)
    (hlast : last = before.getLast?.getD 0)
    (hbefore : before ≠ [] → rangeDash str (before.length - 1) = false) :
    rangeDash str before.length = true ↔ ch₀ = '-'.toUInt8 ∧ last ≠ 0 := by
  rcases List.eq_nil_or_concat' before with rfl | ⟨init, final, rfl⟩
  · rw [List.getLast?_nil, Option.getD_none] at hlast
    simp [rangeDash, hlast]
  · rw [List.getLast?_concat, Option.getD_some] at hlast
    have hfinal : final ≠ 0 := by
      rintro rfl
      exact hstr (hsplit ▸ by simp)
    have hinit : rangeDash str init.length = false := by
      simpa using hbefore (by simp)
    have hat : str[init.length + 1]? = some ch₀ := by
      rw [hsplit, List.append_assoc, List.getElem?_append_right (by omega)]
      simp
    have hlength : init.length + 2 < str.length := by
      rw [hsplit]
      simp
    rw [List.length_append, List.length_singleton, rangeDash, hat, hinit, hlast]
    simp [hlength, hfinal]

/-- The places that the loop has in front of it. -/
theorem getElem?_places (hsplit : str = before ++ ch₀ :: next :: rest) :
    str[before.length]? = some ch₀ ∧ str[before.length + 1]? = some next ∧
      before.length + 1 < str.length := by
  subst hsplit
  simp

theorem getElem?_last (hsplit : str = before ++ rest)
    (hlast : last = before.getLast?.getD 0) (hne : last ≠ 0) :
    str[before.length - 1]? = some last := by
  rcases List.eq_nil_or_concat' before with rfl | ⟨init, final, rfl⟩
  · exact absurd hlast hne
  · rw [List.getLast?_concat, Option.getD_some] at hlast
    rw [hsplit, hlast, List.append_assoc, List.length_append, List.length_singleton,
      Nat.add_sub_cancel]
    simp

end

/-- What a loop that stands behind `before` finds in the rest of the expression. -/
theorem expressionLoop_iff {str : List UInt8} (hstr : 0 ∉ str) {before rest : List UInt8}
    (hsplit : str = before ++ rest) {last : UInt8} (hlast : last = before.getLast?.getD 0)
    (hbefore : before ≠ [] → rangeDash str (before.length - 1) = false) (table : CharTable)
    (ch : UInt8) :
    expressionLoop rest last table ch = true ↔
      table ch = true ∨ ∃ i, before.length ≤ i ∧ i < str.length ∧ Describes str i ch := by
  induction rest, last, table using expressionLoop.induct generalizing before with
  | case1 last table =>
      rw [List.append_nil] at hsplit
      subst hsplit
      have hnone : ¬∃ i, str.length ≤ i ∧ i < str.length ∧ Describes str i ch := by
        rintro ⟨i, hle, hlt, -⟩
        omega
      rw [expressionLoop, or_iff_left hnone]
  | case2 last ch₀ table =>
      have hlength : str.length = before.length + 1 := by
        rw [hsplit, List.length_append, List.length_singleton]
      have hat : str[before.length]? = some ch₀ := by
        rw [hsplit]
        simp
      have hdash : rangeDash str before.length = false := by
        cases hn : before.length with
        | zero => rfl
        | succ n => simp [rangeDash, hlength, hn]
      have hnone : ¬∃ i, before.length + 1 ≤ i ∧ i < str.length ∧ Describes str i ch := by
        rintro ⟨i, hle, hlt, -⟩
        omega
      rw [expressionLoop, exists_place (by omega), or_iff_left hnone, Describes, hdash,
        if_neg Bool.false_ne_true, hat, Option.some.injEq]
      by_cases hch : ch = ch₀
      · simp [hch]
      · simp [hch, Ne.symm hch]
  | case3 ch₀ next rest last table hdash ih =>
      obtain ⟨hat, hnext, hlength⟩ := getElem?_places hsplit
      have hrange := (rangeDash_iff hstr hsplit hlast hbefore).mpr hdash
      have hprevious := getElem?_last hsplit hlast hdash.2
      have hend : rangeDash str (before.length + 1) = false := by
        rw [rangeDash, hrange]
        simp
      have hrest := ih (show str = before ++ [ch₀, next] ++ rest by simp [hsplit]) (by simp)
        (fun _ => by simpa using hend)
      rw [expressionLoop, if_pos hdash, hrest, fillRange_eq,
        exists_place (Nat.lt_of_succ_lt hlength), exists_place hlength, List.length_append]
      have hplace : Describes str before.length ch ↔ Between last next ch := by
        rw [Describes, if_pos hrange, hprevious, hnext]
        simp
      have hplace' : Describes str (before.length + 1) ch ↔ next = ch := by
        rw [Describes, hend, if_neg Bool.false_ne_true, hnext, Option.some.injEq]
      have hlast' : next = ch → Between last next ch := by
        rintro rfl
        exact UInt8.le_refl _
      rw [hplace, hplace', or_assoc]
      refine or_congr Iff.rfl ⟨fun h => h.imp_right Or.inr, ?_⟩
      rintro (hrange | hch | hrest)
      · exact Or.inl hrange
      · exact Or.inl (hlast' hch)
      · exact Or.inr hrest
  | case4 ch₀ next rest last table hdash ih =>
      obtain ⟨hat, hnext, hlength⟩ := getElem?_places hsplit
      have hrange : rangeDash str before.length = false :=
        Bool.eq_false_iff.mpr fun h => hdash ((rangeDash_iff hstr hsplit hlast hbefore).mp h)
      have hrest := ih (show str = before ++ [ch₀] ++ next :: rest by simp [hsplit]) (by simp)
        (fun _ => by simpa using hrange)
      have hplace : Describes str before.length ch ↔ ch = ch₀ := by
        rw [Describes, hrange, if_neg Bool.false_ne_true, hat, Option.some.injEq, eq_comm]
      rw [expressionLoop, if_neg hdash, hrest, exists_place (Nat.lt_of_succ_lt hlength),
        List.length_append, List.length_singleton, hplace]
      by_cases hch : ch = ch₀
      · simp [hch]
      · simp [hch]

/-- **Expressions.**  The table has the characters that some place of the expression stands
for, and NUL when it is asked for. -/
theorem ofExpression_iff {str : List UInt8} (hstr : 0 ∉ str) (checkZero : Bool) (ch : UInt8) :
    ofExpression (some str) checkZero ch = true ↔
      (checkZero = true ∧ ch = 0) ∨ ∃ i < str.length, Describes str i ch := by
  have hloop := expressionLoop_iff hstr (List.nil_append str).symm
    (show (0 : UInt8) = ([] : List UInt8).getLast?.getD 0 from rfl) (fun h => absurd rfl h)
    (fun ch => checkZero && ch == 0) ch
  rw [ofExpression, hloop]
  simp

def letters : List UInt8 := "A-Za-z".toList.map Char.toUInt8

theorem ofExpression_iff_letters :
    ofExpression (some letters) false 98 = true ∧ ∃ i < letters.length, Describes letters i 98 := by
  have hlower : ofExpression (some letters) false 98 = true := by decide +kernel
  have hplace := (ofExpression_iff (by decide +kernel) false 98).mp hlower
  exact ⟨hlower, hplace.resolve_left fun hzero => Bool.false_ne_true hzero.1⟩

end CharTable

/-! ## `trim` -/

section

variable {trimSet : CharTable} {before owned : List UInt8} {ch : UInt8}

/-- The search from the end passes the characters of the category behind the last other
one, and stops there. -/
theorem trimEnd_eq (hch : trimSet ch = false) (howned : ∀ ch ∈ owned, trimSet ch = true)
    {n : Nat} (hn : n ≤ owned.length) :
    trimEnd trimSet (before ++ ch :: owned) (before.length + 1 + n) =
      .ok (before.length + 1) := by
  induction n with
  | zero => simp [trimEnd, Buffer.load_append, hch]
  | succ n ih =>
      have hload : Buffer.load (before ++ ch :: owned) (before.length + 1 + n) =
          .ok owned[n] := by
        rw [Buffer.load, List.getElem?_append_right (by omega)]
        simp [show before.length + 1 + n - before.length = n + 1 by omega, show n < _ from hn]
      have hmem := howned owned[n] (List.getElem_mem _)
      rw [← Nat.add_assoc, trimEnd, hload, Fault.ok_bind, if_pos hmem, ih (by omega)]

end

/-- **Trimming.**  `trim` reads nothing outside of its text, and leaves what is between the
first and the last character that are not in the category. -/
theorem trim_eq (trimSet : CharTable) (str : List UInt8) :
    trim trimSet str = .ok ((str.dropWhile trimSet).rdropWhile trimSet) := by
  obtain ⟨leading, hleading⟩ := List.dropWhile_suffix trimSet (l := str)
  rw [trim, findNonowned_eq]
  cases hrest : str.dropWhile trimSet with
  | nil => simp [Buffer.slice]
  | cons first rest =>
      -- The first character of the rest is the one that the search cannot pass.
      have hfirst : trimSet first = false := by
        exact Runs.head?_dropWhile_eq first (show first ∈ (str.dropWhile trimSet).head? by
          rw [hrest]
          rfl)
      rw [hrest] at hleading
      have hbegin : str.length - (first :: rest).length = leading.length := by
        rw [← hleading, List.length_append, Nat.add_sub_cancel]
      have hne : leading.length ≠ str.length := by
        rw [← hleading, List.length_append, List.length_cons]
        omega
      have hkept : (first :: rest).rdropWhile trimSet ≠ [] := by
        rw [Ne, List.rdropWhile_eq_nil_iff]
        intro hall
        exact Bool.false_ne_true (hfirst.symm.trans (hall first List.mem_cons_self))
      obtain ⟨kept, ch, hsplit⟩ := (List.eq_nil_or_concat' _).resolve_left hkept
      have hch : trimSet ch = false := by
        have hlast := List.rdropWhile_last_not trimSet (first :: rest) hkept
        simpa [hsplit] using hlast
      have hparts : leading ++ kept ++ ch :: (first :: rest).rtakeWhile trimSet = str := by
        have happend := List.rdropWhile_append_rtakeWhile (p := trimSet) (l := first :: rest)
        rw [hsplit, List.append_assoc, List.singleton_append] at happend
        rw [List.append_assoc, happend, hleading]
      have howned : ∀ ch ∈ (first :: rest).rtakeWhile trimSet, trimSet ch = true :=
        fun ch hmem => List.mem_rtakeWhile_imp hmem
      have hend : trimEnd trimSet (leading ++ kept ++ ch :: (first :: rest).rtakeWhile trimSet)
          ((leading ++ kept).length + 1 + ((first :: rest).rtakeWhile trimSet).length) =
            .ok ((leading ++ kept).length + 1) :=
        trimEnd_eq hch howned le_rfl
      have hlength : (leading ++ kept).length + 1 +
          ((first :: rest).rtakeWhile trimSet).length = str.length := by
        rw [← hparts]
        simp only [List.length_append, List.length_cons]
        omega
      rw [hparts, hlength] at hend
      have hslice : Buffer.slice str leading.length ((leading ++ kept).length + 1) =
          kept ++ [ch] := by
        have hcount : (leading ++ kept).length + 1 - leading.length = (kept ++ [ch]).length := by
          rw [List.length_append, List.length_append, List.length_singleton]
          omega
        rw [Buffer.slice, hcount, ← hparts, List.append_assoc, List.drop_left,
          List.append_cons kept ch (List.rtakeWhile _ _), List.take_left]
      simp only [hbegin, ne_eq, hne, not_false_eq_true, if_true, hend, Fault.ok_bind, hsplit,
        hslice]

end LiteMQ.Gears.Ascii
