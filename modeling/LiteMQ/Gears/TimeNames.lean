import LiteMQ.Gears.TimeFormat
import Mathlib.Data.List.GetD

/-!
# Reading back the names of days and months

`from_str_` takes the first name of a table that the value begins with, in its full form
before its short one.  No two names of a table agree in their first three letters, so it
finds the name that was written (`findName_short`, `findName_full`).

A short name is only read back when it is not continued to the full one.  Nothing that
`to_str_` writes behind it does that (`NoEnding`): the names begin differently from the
endings of names, and everything else with a character that is no letter.
-/

namespace LiteMQ.Gears
namespace ExtendedTime

/-- The two texts differ where both have a letter. -/
def clash : List Char → List Char → Bool
  | n :: name, c :: text => c.toLower ≠ n.toLower || clash name text
  | _, _ => false

theorem checkName_of_clash {name text : List Char} (h : clash name text = true)
    (rest : List Char) : checkName name (text ++ rest) = none := by
  induction name generalizing text with
  | nil => cases h
  | cons n name ih =>
      cases text with
      | nil => cases h
      | cons c text =>
          rw [List.cons_append, checkName]
          split
          · rename_i hsame
            apply ih
            simpa [clash, hsame] using h
          · rfl

theorem clash_append {name text : List Char} (h : clash name text = true) (rest : List Char) :
    clash name (text ++ rest) = true := by
  induction name generalizing text with
  | nil => cases h
  | cons n name ih =>
      cases text with
      | nil => cases h
      | cons c text =>
          rw [clash, Bool.or_eq_true] at h
          rw [List.cons_append, clash, Bool.or_eq_true]
          exact h.imp_right ih

theorem checkName_append (name ending rest : List Char) :
    checkName (name ++ ending) (name ++ rest) = checkName ending rest := by
  induction name with
  | nil => rfl
  | cons n name ih => rw [List.cons_append, List.cons_append, checkName, if_pos rfl, ih]

/-- No name of the tables before the place `i` is the beginning of a text that begins with
the short name there, and that begins the full one. -/
def Separated (full short : List (List Char)) : Prop :=
  full.length = short.length ∧ ∀ i < short.length,
    (∀ name ∈ full.take i ++ short.take i, clash name (short.getD i []) = true) ∧
      full.getD i [] = short.getD i [] ++ (full.getD i []).drop 3

instance (full short : List (List Char)) : Decidable (Separated full short) :=
  inferInstanceAs (Decidable (_ ∧ _))

theorem days_separated : Separated daysFull daysShort := by decide +kernel

theorem months_separated : Separated monthsFull monthsShort := by decide +kernel

/-- The loop goes on to the place of the name. -/
theorem findName_of_clash {full short : List (List Char)} {i : Nat} {text rest : List Char}
    (hfull : i < full.length) (hshort : i < short.length)
    (hbefore : ∀ name ∈ full.take i ++ short.take i, checkName name text = none)
    (hat : ((checkName (full.getD i []) text).orElse fun _ =>
      checkName (short.getD i []) text) = some rest) :
    findName full short text = some (i, rest) := by
  induction i generalizing full short with
  | zero =>
      obtain ⟨f, full, rfl⟩ := List.exists_cons_of_length_pos hfull
      obtain ⟨s, short, rfl⟩ := List.exists_cons_of_length_pos hshort
      rw [List.getD_cons_zero, List.getD_cons_zero] at hat
      rw [findName, hat]
  | succ i ih =>
      obtain ⟨f, full, rfl⟩ := List.exists_cons_of_length_pos (Nat.zero_lt_of_lt hfull)
      obtain ⟨s, short, rfl⟩ := List.exists_cons_of_length_pos (Nat.zero_lt_of_lt hshort)
      have hf : checkName f text = none := hbefore f (by simp)
      have hs : checkName s text = none := hbefore s (by simp)
      have hrest : findName full short text = some (i, rest) := by
        apply ih
        · exact Nat.lt_of_succ_lt_succ hfull
        · exact Nat.lt_of_succ_lt_succ hshort
        · intro name hmem
          apply hbefore name
          rw [List.take_succ_cons, List.take_succ_cons]
          rcases List.mem_append.mp hmem with h | h
          · exact List.mem_append_left _ (List.mem_cons_of_mem f h)
          · exact List.mem_append_right _ (List.mem_cons_of_mem s h)
        · simpa using hat
      rw [findName, hf, hs]
      simp [hrest]

/-- The endings of full names behind their short forms. -/
def nameEndings : List (List Char) :=
  ((daysFull ++ monthsFull).map (List.drop 3)).filter fun ending => ending ≠ []

/-- The text does not complete a short name to its full form. -/
def NoEnding (text : List Char) : Prop := ∀ ending ∈ nameEndings, checkName ending text = none

/-- A full name is read back, whatever follows. -/
theorem findName_full {full short : List (List Char)} (h : Separated full short) {i : Nat}
    (hi : i < short.length) (rest : List Char) :
    findName full short (full.getD i [] ++ rest) = some (i, rest) := by
  obtain ⟨hlength, htable⟩ := h
  obtain ⟨hclash, hfull⟩ := htable i hi
  apply findName_of_clash (hlength ▸ hi) hi
  · intro name hmem
    apply checkName_of_clash
    rw [hfull]
    exact clash_append (hclash name hmem) _
  · have hname := checkName_append (full.getD i []) [] rest
    rw [List.append_nil] at hname
    rw [hname]
    rfl

/-- A short name is read back when it is not completed to its full form. -/
theorem findName_short {full short : List (List Char)} (h : Separated full short) {i : Nat}
    (hi : i < short.length) {rest : List Char}
    (hrest : (full.getD i []).drop 3 = [] ∨ checkName ((full.getD i []).drop 3) rest = none) :
    findName full short (short.getD i [] ++ rest) = some (i, rest) := by
  obtain ⟨hlength, htable⟩ := h
  obtain ⟨hclash, hfull⟩ := htable i hi
  apply findName_of_clash (hlength ▸ hi) hi
  · exact fun name hmem => checkName_of_clash (hclash name hmem) rest
  · have hshort := checkName_append (short.getD i []) [] rest
    rw [List.append_nil] at hshort
    have hlong : checkName (full.getD i []) (short.getD i [] ++ rest) =
        checkName ((full.getD i []).drop 3) rest := by
      conv_lhs => rw [hfull]
      exact checkName_append _ _ _
    rw [hlong, hshort]
    rcases hrest with hempty | hnone
    · rw [hempty]
      rfl
    · rw [hnone]
      rfl

/-- The endings of the days and months are among those that do not follow. -/
theorem NoEnding.at {full : List (List Char)} (hfull : full = daysFull ∨ full = monthsFull)
    {i : Nat} (hi : i < full.length) {rest : List Char} (h : NoEnding rest) :
    (full.getD i []).drop 3 = [] ∨ checkName ((full.getD i []).drop 3) rest = none := by
  by_cases hempty : (full.getD i []).drop 3 = []
  · exact Or.inl hempty
  · apply Or.inr
    apply h
    have hmem : full.getD i [] ∈ full := by
      rw [List.getD_eq_getElem full [] hi]
      exact List.getElem_mem hi
    apply List.mem_filter.mpr
    refine ⟨List.mem_map_of_mem ?_, by simpa using hempty⟩
    rcases hfull with rfl | rfl
    · exact List.mem_append_left _ hmem
    · exact List.mem_append_right _ hmem

theorem noEnding_nil : NoEnding [] := by
  unfold NoEnding
  decide

/-- No name begins as an ending does. -/
theorem noEnding_name {name : List Char} (h : name ∈ daysShort ++ monthsShort)
    (rest : List Char) : NoEnding (name ++ rest) := by
  have hclash : ∀ name ∈ daysShort ++ monthsShort, ∀ ending ∈ nameEndings,
      clash ending name = true := by
    decide +kernel
  exact fun ending hmem => checkName_of_clash (hclash name h ending hmem) rest

theorem toLower_of_not_isAlpha {c : Char} (hc : c.isAlpha = false) : c.toLower = c := by
  have hletter : c.isUpper = false := (Bool.or_eq_false_iff.mp hc).1
  apply dif_neg
  exact of_decide_eq_false hletter

/-- A character that is no letter begins no ending. -/
theorem noEnding_cons {c : Char} (hc : c.isAlpha = false) (rest : List Char) :
    NoEnding (c :: rest) := by
  have hletters : ∀ ending ∈ nameEndings,
      ending.head?.any (fun n => n.toLower = n ∧ n.isAlpha = true) = true := by
    decide +kernel
  intro ending hmem
  have hfirst := hletters ending hmem
  cases ending with
  | nil => cases hfirst
  | cons n ending =>
      obtain ⟨hlower, hletter⟩ : n.toLower = n ∧ n.isAlpha = true := of_decide_eq_true hfirst
      have hsame : c.toLower = c := toLower_of_not_isAlpha hc
      rw [checkName, if_neg]
      rw [hsame, hlower]
      rintro rfl
      rw [hletter] at hc
      cases hc

end ExtendedTime
end LiteMQ.Gears
