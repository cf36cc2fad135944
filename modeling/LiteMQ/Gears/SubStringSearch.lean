import LiteMQ.Foundation.IntegerType
import LiteMQ.Foundation.Occurrences
import LiteMQ.Gears.SubString

/-!
# `BasicSubString::find` and `rfind`

A substring is the list of its characters.  `find` looks for a character, a substring or
the first `count` characters from a pointer on, from a position forwards, and `rfind` from
a position backwards.

Both overloads for characters and `rfind` for substrings do what the documentation says.
`find` for substrings goes wrong for the empty one, and for a position so large that
`begin_ + pos` wraps around and lies in front of the string; `rfind` for a pointer does not
use `count` and looks for the C string there (`find_rfind_contract`).
-/

namespace LiteMQ.Gears.BasicSubString

open IntegerType (sizeT ptrdiffT)
open Occurrences Lexicographic

/-- `NPOS` -/
def npos : Nat := 2 ^ 64 - 1

section

variable {α : Type} [LinearOrder α] [Zero α]

/-! ## The functions -/

/-- `Traits::length`: the characters before the NUL. -/
def traitsLength : (ptr : List α) → Except Fault Nat
  | [] => .error .outOfBounds
  | ch :: ptr => if ch = 0 then .ok 0 else do
      let length ← traitsLength ptr
      .ok (length + 1)

/-- The characters of `[first, last)` in a string. -/
def range (s : List α) (first last : Nat) : Except Fault (List α) :=
  if first ≤ last ∧ last ≤ s.length then .ok (Buffer.slice s first last)
  else .error .outOfBounds

/-- `get_available_length_` -/
def availableLength (s : List α) (pos count : Nat) : Nat := min count (sizeT (s.length - pos))

/-- `find(ValueType, SizeType)` -/
def findChar (s : List α) (ch : α) (pos : Nat) : Except Fault Nat :=
  if pos < s.length then do
    let chars ← range s pos (pos + (s.length - pos))
    match chars.idxOf? ch with
    | some ptr => .ok (pos + ptr)
    | none => .ok npos
  else .ok npos

/-- `std::search` from `begin_ + pos` on, for characters of one byte.  It goes by the
difference of the pointers: where that is not positive, the result is the end, with nothing
read. -/
def searchFrom (s str : List α) (pos : Nat) : Except Fault Nat :=
  if ptrdiffT (s.length - pos) ≤ 0 then .ok s.length
  else do
    let chars ← range s pos s.length
    .ok (pos + search chars str)

/-- `find(const BasicSubString&, SizeType)` -/
def findSub (s str : List α) (pos : Nat) : Except Fault Nat :=
  if str.length = 0 then .ok (if pos ≥ s.length then npos else 0)
  else
    let length := availableLength s pos s.length
    if str.length > length then .ok npos
    else do
      let found ← searchFrom s str pos
      .ok (if found ≠ s.length then found else npos)

/-- `BasicSubString(Pointer, SizeType)` -/
def ofCount (ptr : List α) (count : Nat) : Except Fault (List α) := range ptr 0 count

/-- `BasicSubString(Pointer)` -/
def ofPointer (ptr : List α) : Except Fault (List α) := do
  let length ← traitsLength ptr
  range ptr 0 length

/-- `find(ConstPointer, SizeType, SizeType)` -/
def findCount (s ptr : List α) (pos count : Nat) : Except Fault Nat := do
  let str ← ofCount ptr count
  findSub s str pos

/-- `rfind(ValueType, SizeType)` -/
def rfindChar (s : List α) (ch : α) (pos : Nat) : Except Fault Nat :=
  if s.length ≠ 0 then
    scanBack (fun last => do
      let x ← Buffer.load s last
      .ok (decide (x = ch))) npos (min (s.length - 1) pos)
  else .ok npos

/-- `rfind(const BasicSubString&, SizeType)` -/
def rfindSub (s str : List α) (pos : Nat) : Except Fault Nat :=
  if str.length > s.length then .ok npos
  else
    let pos := if pos > s.length then s.length else pos
    if str.length = 0 then .ok pos
    else
      let pos := if pos > s.length - str.length then s.length - str.length else pos
      scanBack (fun data => do
        let result ← traitsCompare (s.drop data) str str.length
        .ok (decide (result = 0))) npos pos

/-- `rfind(ConstPointer, SizeType, SizeType)` -/
def rfindCount (s ptr : List α) (pos _count : Nat) : Except Fault Nat := do
  let str ← ofPointer ptr
  rfindSub s str pos

end

variable {α : Type} {s str : List α} {pos : Nat}

theorem range_eq {first last : Nat} (hfirst : first ≤ last) (hlast : last ≤ s.length) :
    range s first last = .ok (Buffer.slice s first last) := if_pos ⟨hfirst, hlast⟩

theorem range_to_end (h : pos ≤ s.length) : range s pos s.length = .ok (s.drop pos) := by
  rw [range_eq h (Nat.le_refl _), Buffer.slice, List.take_of_length_le (by simp)]

/-- Behind the end the difference wraps around, and everything counts as available. -/
theorem availableLength_of_gt (hpos : s.length < pos) (hlt : pos < 2 ^ 64) :
    availableLength s pos s.length = s.length := by
  rw [availableLength, sizeT]
  omega

theorem ofCount_append (str beyond : List α) :
    ofCount (str ++ beyond) str.length = .ok str := by
  rw [ofCount, range_eq (Nat.zero_le _) (by simp), Buffer.slice]
  simp

/-! ## Forwards -/

variable [LinearOrder α]

theorem findChar_spec (s : List α) (ch : α) (pos : Nat) :
    ∃ r, findChar s ch pos = .ok r ∧ IsFirst (OccursAt [ch] s) pos npos r := by
  rw [findChar]
  split
  · rename_i hlt
    rw [show pos + (s.length - pos) = s.length by omega, range_to_end (Nat.le_of_lt hlt),
      Fault.ok_bind]
    cases hfind : (s.drop pos).idxOf? ch with
    | some ptr =>
        obtain ⟨hptr, hget, hbefore⟩ := List.idxOf?_eq_some_iff.1 hfind
        refine ⟨pos + ptr, rfl, IsFirst.of_drop (Nat.le_of_lt hlt) ?_ ?_⟩
        · exact occursAt_singleton.2 (List.getElem?_eq_some_iff.2 ⟨hptr, hget⟩)
        · intro j hoccurs
          by_contra hj
          obtain ⟨hlen, hch⟩ := List.getElem?_eq_some_iff.1 (occursAt_singleton.1 hoccurs)
          exact hbefore j (by omega) hch
    | none =>
        refine ⟨npos, rfl, isFirst_none_of_drop (Nat.le_of_lt hlt) fun j hoccurs => ?_⟩
        exact List.idxOf?_eq_none_iff.1 hfind
          (List.mem_of_getElem? (occursAt_singleton.1 hoccurs))
  · rename_i hge
    refine ⟨npos, rfl, Or.inr ⟨rfl, fun i hi hoccurs => ?_⟩⟩
    have hle := hoccurs.add_le
    rw [List.length_singleton] at hle
    omega

/-- From a place that does not wrap around, the search returns the first occurrence or the
end. -/
theorem searchFrom_spec (hs : s.length < 2 ^ 63) (hstr : str ≠ [])
    (hpos : pos ≤ s.length + 2 ^ 63) :
    ∃ r, searchFrom s str pos = .ok r ∧ IsFirst (OccursAt str s) pos s.length r := by
  have hlen : 0 < str.length := List.length_pos_iff.2 hstr
  rw [searchFrom]
  split
  · rename_i hdiff
    have hend : s.length ≤ pos := by
      unfold ptrdiffT at hdiff
      omega
    refine ⟨_, rfl, Or.inr ⟨rfl, fun i hi hoccurs => ?_⟩⟩
    have hle := hoccurs.add_le
    omega
  · rename_i hdiff
    have hinside : pos ≤ s.length := by
      unfold ptrdiffT at hdiff
      omega
    rw [range_to_end hinside, Fault.ok_bind]
    refine ⟨_, rfl, ?_⟩
    rcases search_spec hstr (s.drop pos) with ⟨hoccurs, hleast⟩ | ⟨hend, hnone⟩
    · exact IsFirst.of_drop hinside hoccurs hleast
    · rw [hend, List.length_drop, Nat.add_sub_cancel' hinside]
      exact isFirst_none_of_drop hinside hnone

/-- A place that wraps around lies in front of the string. -/
theorem searchFrom_of_wraps (hs : s.length < 2 ^ 63) (hpos : s.length + 2 ^ 63 < pos)
    (hlt : pos < 2 ^ 64) : searchFrom s str pos = .error .outOfBounds := by
  have hdiff : ¬ptrdiffT (s.length - pos) ≤ 0 := by
    unfold ptrdiffT
    omega
  rw [searchFrom, if_neg hdiff, range, if_neg (by omega)]
  rfl

/-- For a needle that is not empty, `find` is right from any place that does not wrap
around. -/
theorem findSub_of_le (hs : s.length < 2 ^ 63) (hstr : str ≠ [])
    (hpos : pos ≤ s.length + 2 ^ 63) :
    ∃ r, findSub s str pos = .ok r ∧ IsFirst (OccursAt str s) pos npos r := by
  have hlen : str.length ≠ 0 := mt List.length_eq_zero_iff.1 hstr
  rw [findSub, if_neg hlen]
  simp only []
  split
  · rename_i hlong
    refine ⟨npos, rfl, Or.inr ⟨rfl, fun i hi hoccurs => ?_⟩⟩
    have hle := hoccurs.add_le
    rw [availableLength, sizeT] at hlong
    omega
  · obtain ⟨r, hr, hfirst⟩ := searchFrom_spec hs hstr hpos
    rw [hr, Fault.ok_bind]
    refine ⟨_, rfl, ?_⟩
    rcases hfirst with ⟨hle, hoccurs, hleast⟩ | ⟨rfl, hnone⟩
    · have hend := hoccurs.add_le
      rw [if_pos (by omega)]
      exact Or.inl ⟨hle, hoccurs, hleast⟩
    · rw [if_neg (not_not.2 rfl)]
      exact Or.inr ⟨rfl, hnone⟩

/-- For the empty needle `find` is right behind the end, and at the beginning of a string
that is not empty. -/
theorem findSub_nil_iff (hs : s.length < 2 ^ 63) (pos : Nat) :
    (∃ r, findSub s [] pos = .ok r ∧ IsFirst (OccursAt [] s) pos npos r) ↔
      s.length < pos ∨ (pos = 0 ∧ 0 < s.length) := by
  have hfind : findSub s [] pos = .ok (if pos ≥ s.length then npos else 0) := rfl
  have hnpos : s.length < npos := Nat.lt_of_lt_of_le hs (by decide)
  rw [hfind]
  rcases Nat.lt_trichotomy pos s.length with hlt | heq | hgt
  · rw [if_neg (by omega)]
    constructor
    · rintro ⟨r, hr, ⟨hpos, -, -⟩ | ⟨hnone, -⟩⟩
      · obtain rfl : 0 = r := Except.ok.inj hr
        exact Or.inr ⟨by omega, by omega⟩
      · obtain rfl : 0 = r := Except.ok.inj hr
        exact absurd hnone (by decide)
    · intro h
      obtain rfl : pos = 0 := by omega
      exact ⟨0, rfl, Or.inl ⟨Nat.le_refl 0, occursAt_nil.2 (Nat.zero_le _),
        fun i _ _ => Nat.zero_le i⟩⟩
  · rw [if_pos (by omega)]
    constructor
    · rintro ⟨r, hr, ⟨-, hoccurs, -⟩ | ⟨-, hno⟩⟩
      · obtain rfl : npos = r := Except.ok.inj hr
        have hle := occursAt_nil.1 hoccurs
        omega
      · exact absurd (occursAt_nil.2 (Nat.le_of_eq heq)) (hno pos (Nat.le_refl pos))
    · intro h
      omega
  · rw [if_pos (by omega)]
    refine iff_of_true ⟨npos, rfl, Or.inr ⟨rfl, fun i hi hoccurs => ?_⟩⟩ (Or.inl hgt)
    have hle := occursAt_nil.1 hoccurs
    omega

/-- Where `find` for substrings is right. -/
theorem findSub_right_iff (hs : s.length < 2 ^ 63) (hpos : pos < 2 ^ 64) :
    (∃ r, findSub s str pos = .ok r ∧ IsFirst (OccursAt str s) pos npos r) ↔
      (str ≠ [] ∧ (pos ≤ s.length + 2 ^ 63 ∨ s.length < str.length)) ∨
        (str = [] ∧ (s.length < pos ∨ (pos = 0 ∧ 0 < s.length))) := by
  by_cases hstr : str = []
  · subst hstr
    rw [findSub_nil_iff hs]
    simp
  have hlen : str.length ≠ 0 := mt List.length_eq_zero_iff.1 hstr
  by_cases hle : pos ≤ s.length + 2 ^ 63
  · exact iff_of_true (findSub_of_le hs hstr hle) (Or.inl ⟨hstr, Or.inl hle⟩)
  have hgt : s.length + 2 ^ 63 < pos := Nat.not_le.1 hle
  rw [findSub, if_neg hlen, availableLength_of_gt (by omega) hpos]
  by_cases hlong : str.length > s.length
  · refine iff_of_true ⟨npos, if_pos hlong, Or.inr ⟨rfl, fun i hi hoccurs => ?_⟩⟩
      (Or.inl ⟨hstr, Or.inr hlong⟩)
    have hend := hoccurs.add_le
    omega
  · simp only [if_neg hlong, searchFrom_of_wraps hs hgt hpos, Fault.error_bind]
    constructor
    · rintro ⟨r, hr, -⟩
      cases hr
    · rintro (⟨-, h | h⟩ | ⟨h, -⟩)
      · omega
      · omega
      · exact absurd h hstr

/-! ## Backwards -/

theorem rfindChar_spec (s : List α) (ch : α) (pos : Nat) :
    ∃ r, rfindChar s ch pos = .ok r ∧ IsLast (OccursAt [ch] s) pos npos r := by
  rw [rfindChar]
  split
  · rename_i hne
    have htest : ∀ i ≤ min (s.length - 1) pos,
        (do let x ← Buffer.load s i; Except.ok (decide (x = ch))) =
          (Except.ok (decide (s[i]? = some ch)) : Except Fault Bool) := by
      intro i hi
      have hlt : i < s.length := by omega
      rw [Buffer.load_eq_ok hlt, Fault.ok_bind, List.getElem?_eq_getElem hlt]
      simp
    obtain ⟨r, hr, hlast⟩ := scanBack_spec htest npos
    have hbound : ∀ i, OccursAt [ch] s i → i ≤ s.length - 1 := by
      intro i hoccurs
      have hle := hoccurs.add_le
      rw [List.length_singleton] at hle
      omega
    refine ⟨r, hr, IsLast.of_min hbound ?_⟩
    rw [Nat.min_comm]
    exact hlast.congr fun i => occursAt_singleton.symm
  · rename_i hempty
    refine ⟨npos, rfl, Or.inr ⟨rfl, fun i hi hoccurs => ?_⟩⟩
    have hle := hoccurs.add_le
    rw [List.length_singleton] at hle
    omega

theorem rfindSub_spec (s str : List α) (pos : Nat) :
    ∃ r, rfindSub s str pos = .ok r ∧ IsLast (OccursAt str s) pos npos r := by
  rw [rfindSub]
  split
  · rename_i hlong
    refine ⟨npos, rfl, Or.inr ⟨rfl, fun i hi hoccurs => ?_⟩⟩
    have hle := hoccurs.add_le
    omega
  rename_i hshort
  have hclamp : (if pos > s.length then s.length else pos) = min pos s.length := by
    split <;> omega
  simp only [hclamp]
  split
  · rename_i hempty
    obtain rfl : str = [] := List.eq_nil_of_length_eq_zero hempty
    refine ⟨_, rfl, Or.inl ⟨Nat.min_le_left _ _, occursAt_nil.2 (Nat.min_le_right _ _), ?_⟩⟩
    intro i hi hoccurs
    have hle := occursAt_nil.1 hoccurs
    omega
  rename_i hlen
  have hstr : str ≠ [] := mt List.length_eq_zero_iff.2 hlen
  have hstart : (if min pos s.length > s.length - str.length then s.length - str.length
      else min pos s.length) = min pos (s.length - str.length) := by
    split <;> omega
  simp only [hstart]
  have htest : ∀ i ≤ min pos (s.length - str.length),
      (do let result ← traitsCompare (s.drop i) str str.length
          Except.ok (decide (result = 0))) =
        (Except.ok (decide ((s.drop i).take str.length = str)) : Except Fault Bool) := by
    intro i hi
    rw [traitsCompare_eq (by rw [List.length_drop]; omega) (Nat.le_refl _), Fault.ok_bind,
      List.take_length]
    simp only [sign_eq_zero]
  obtain ⟨r, hr, hlast⟩ := scanBack_spec htest npos
  have hbound : ∀ i, OccursAt str s i → i ≤ s.length - str.length := by
    intro i hoccurs
    have hle := hoccurs.add_le
    omega
  exact ⟨r, hr, IsLast.of_min hbound (hlast.congr fun i => (occursAt_iff_take hstr).symm)⟩

/-! ## The C string at a pointer -/

section

variable [Zero α]

theorem ofPointer_of_held {text : List α} (htext : 0 ∉ text) (rest : List α) :
    ofPointer (text ++ 0 :: rest) = .ok text := by
  have hlength : traitsLength (text ++ 0 :: rest) = .ok text.length := by
    induction text with
    | nil => simp [traitsLength]
    | cons ch text ih =>
        obtain ⟨hch, hrest⟩ := List.ne_and_not_mem_of_not_mem_cons htext
        rw [List.cons_append, traitsLength, if_neg (Ne.symm hch), ih hrest]
        rfl
  rw [ofPointer, hlength, Fault.ok_bind, range_eq (Nat.zero_le _) (by simp), Buffer.slice]
  simp

/-- Without a NUL the end of the C string is looked for outside. -/
theorem ofPointer_of_not_mem {ptr : List α} (hptr : 0 ∉ ptr) :
    ofPointer ptr = .error .outOfBounds := by
  have hlength : traitsLength ptr = .error .outOfBounds := by
    induction ptr with
    | nil => rfl
    | cons ch ptr ih =>
        obtain ⟨hch, hrest⟩ := List.ne_and_not_mem_of_not_mem_cons hptr
        rw [traitsLength, if_neg (Ne.symm hch), ih hrest]
        rfl
  rw [ofPointer, hlength]
  rfl

/-- Where `rfind` for a pointer is right, whatever lies behind the needle: it looks for the C
string. -/
theorem rfindCount_right_iff {s : List α} (hs : s.length < 2 ^ 63) (needle : List α)
    (pos : Nat) :
    (∃ r, (∀ beyond, rfindCount s (needle ++ beyond) pos needle.length = .ok r) ∧
        IsLast (OccursAt needle s) pos npos r) ↔
      ∃ text rest, needle = text ++ 0 :: rest ∧ 0 ∉ text ∧
        ∀ i ≤ pos, OccursAt text s i → ∃ j ≤ pos, i ≤ j ∧ OccursAt needle s j := by
  have hcall : ∀ text rest, needle = text ++ 0 :: rest → 0 ∉ text → ∀ beyond,
      rfindCount s (needle ++ beyond) pos needle.length = rfindSub s text pos := by
    rintro text rest rfl htext beyond
    rw [rfindCount, List.append_assoc, List.cons_append, ofPointer_of_held htext,
      Fault.ok_bind]
  have hlast : ∀ text rest, needle = text ++ 0 :: rest → ∃ r, rfindSub s text pos = .ok r ∧
      (IsLast (OccursAt needle s) pos npos r ↔
        ∀ i ≤ pos, OccursAt text s i → ∃ j ≤ pos, i ≤ j ∧ OccursAt needle s j) := by
    rintro text rest rfl
    obtain ⟨r, hr, hlast⟩ := rfindSub_spec s text pos
    have hsub : ∀ i, OccursAt (text ++ 0 :: rest) s i → OccursAt text s i :=
      fun i h => h.of_isPrefix (List.prefix_append _ _)
    have hnone : ¬OccursAt text s npos := fun h =>
      absurd (Nat.lt_of_le_of_lt h.1 hs) (by decide)
    exact ⟨r, hr, hlast.restrict_iff hsub hnone⟩
  constructor
  · rintro ⟨r, hr, hneedle⟩
    have hnul : 0 ∈ needle := by
      by_contra hnul
      have hfault := hr []
      rw [rfindCount, List.append_nil, ofPointer_of_not_mem hnul] at hfault
      cases hfault
    obtain ⟨text, rest, hptr, htext⟩ := List.eq_append_cons_of_mem hnul
    obtain ⟨r', hr', hiff⟩ := hlast text rest hptr
    have hsame : r' = r := by
      have h := hr []
      rw [hcall text rest hptr htext, hr'] at h
      exact Except.ok.inj h
    exact ⟨text, rest, hptr, htext, hiff.1 (hsame ▸ hneedle)⟩
  · rintro ⟨text, rest, hptr, htext, hbehind⟩
    obtain ⟨r, hr, hiff⟩ := hlast text rest hptr
    exact ⟨r, fun beyond => (hcall text rest hptr htext beyond).trans hr, hiff.2 hbehind⟩

/-- The overloads for characters and `rfind` for substrings are right for every position; the
other ones just under their conditions on the needle and the position. -/
theorem find_rfind_contract {s : List α} (hs : s.length < 2 ^ 63) {pos : Nat}
    (hpos : pos < 2 ^ 64) :
    (∀ ch, ∃ r, findChar s ch pos = .ok r ∧ IsFirst (OccursAt [ch] s) pos npos r) ∧
      (∀ ch, ∃ r, rfindChar s ch pos = .ok r ∧ IsLast (OccursAt [ch] s) pos npos r) ∧
      (∀ t, ∃ r, rfindSub s t pos = .ok r ∧ IsLast (OccursAt t s) pos npos r) ∧
      (∀ t, (∃ r, findSub s t pos = .ok r ∧ IsFirst (OccursAt t s) pos npos r) ↔
        (t ≠ [] ∧ (pos ≤ s.length + 2 ^ 63 ∨ s.length < t.length)) ∨
          (t = [] ∧ (s.length < pos ∨ (pos = 0 ∧ 0 < s.length)))) ∧
      (∀ t, (∃ r, (∀ beyond, findCount s (t ++ beyond) pos t.length = .ok r) ∧
          IsFirst (OccursAt t s) pos npos r) ↔
        (t ≠ [] ∧ (pos ≤ s.length + 2 ^ 63 ∨ s.length < t.length)) ∨
          (t = [] ∧ (s.length < pos ∨ (pos = 0 ∧ 0 < s.length)))) ∧
      ∀ t, (∃ r, (∀ beyond, rfindCount s (t ++ beyond) pos t.length = .ok r) ∧
          IsLast (OccursAt t s) pos npos r) ↔
        ∃ text rest, t = text ++ 0 :: rest ∧ 0 ∉ text ∧
          ∀ i ≤ pos, OccursAt text s i → ∃ j ≤ pos, i ≤ j ∧ OccursAt t s j := by
  refine ⟨fun ch => findChar_spec s ch pos, fun ch => rfindChar_spec s ch pos,
    fun t => rfindSub_spec s t pos, fun t => findSub_right_iff hs hpos, fun t => ?_,
    fun t => rfindCount_right_iff hs t pos⟩
  have hcall : ∀ beyond, findCount s (t ++ beyond) pos t.length = findSub s t pos := by
    intro beyond
    rw [findCount, ofCount_append, Fault.ok_bind]
  simp only [hcall, forall_const]
  exact findSub_right_iff hs hpos

end

/-- The second "ab" of "abcab" is found from the second character on. -/
theorem find_rfind_contract_example :
    ∃ r, findSub [97, 98, 99, 97, 98] [97, 98] 1 = .ok r ∧
      IsFirst (OccursAt [97, 98] [97, 98, 99, 97, 98]) 1 npos r :=
  ((find_rfind_contract (α := Nat) (s := [97, 98, 99, 97, 98]) (by decide)
    (show 1 < 2 ^ 64 by decide)).2.2.2.1 [97, 98]).2 (Or.inl ⟨by decide, Or.inl (by decide)⟩)

/-- The empty needle from the second character of "ab" on is found at 0; from `NPOS` on, which
is the place in front of the string, the search for "a" reads what is there; and `rfind` for
the first character of "ab" in "ac" looks for all of "ab". -/
theorem find_rfind_wrong :
    (findSub [97, 98] [] 1 = .ok 0 ∧ ¬IsFirst (OccursAt [] [97, 98]) 1 npos 0) ∧
      findSub [97, 98] [97] npos = .error .outOfBounds ∧
      (rfindCount [97, 99] [97, 98, 0] 1 1 = .ok npos ∧
        ¬IsLast (OccursAt [97] ([97, 99] : List Nat)) 1 npos npos) := by
  refine ⟨⟨rfl, ?_⟩, by decide, by decide, ?_⟩
  · rintro (⟨hpos, -, -⟩ | ⟨hnone, -⟩)
    · exact absurd hpos (by decide)
    · exact absurd hnone (by decide)
  · rintro (⟨hpos, -, -⟩ | ⟨-, hno⟩)
    · exact absurd hpos (by decide)
    · exact hno 0 (Nat.zero_le 1) ⟨Nat.zero_le _, [99], rfl⟩

end LiteMQ.Gears.BasicSubString
