import Mathlib.Data.List.Basic

/-!
# Terminated lines

`terminated sep lines` writes every line followed by the separator.  When no
line contains the separator, splitting at it gives the lines back, with the
unfinished rest as the last piece (`splitOn_terminated_append`).
-/

namespace Lines

variable {α : Type*}

/-- The lines one after another, each followed by the separator. -/
def terminated (sep : α) (lines : List (List α)) : List α :=
  (lines.map (· ++ [sep])).flatten

@[simp] theorem terminated_nil (sep : α) : terminated sep [] = [] := rfl

@[simp] theorem terminated_cons (sep : α) (line : List α) (lines : List (List α)) :
    terminated sep (line :: lines) = line ++ sep :: terminated sep lines := by
  simp [terminated]

theorem terminated_append (sep : α) (xs ys : List (List α)) :
    terminated sep (xs ++ ys) = terminated sep xs ++ terminated sep ys := by
  simp [terminated]

variable [DecidableEq α]

/-- Splitting at the separator undoes writing the lines. -/
theorem splitOn_terminated_append {sep : α} {lines : List (List α)}
    (hlines : ∀ line ∈ lines, sep ∉ line) {rest : List α} (hrest : sep ∉ rest) :
    (terminated sep lines ++ rest).splitOn sep = lines ++ [rest] := by
  induction lines with
  | nil => simpa using List.splitOn_eq_singleton hrest
  | cons line lines ih =>
      have hline : sep ∉ line := hlines line (List.mem_cons_self ..)
      rw [terminated_cons, List.append_assoc, List.cons_append,
        List.splitOn_append_cons_self_of_not_mem hline,
        ih fun l hl => hlines l (List.mem_cons_of_mem _ hl), List.cons_append]

/-- The first separator cuts a list into a line, the separator and the rest. -/
theorem eq_take_idxOf_append {sep : α} {xs : List α} (h : sep ∈ xs) :
    xs = xs.take (xs.idxOf sep) ++ sep :: xs.drop (xs.idxOf sep + 1) := by
  have hlt : xs.idxOf sep < xs.length := List.idxOf_lt_length_of_mem h
  have hget : xs[xs.idxOf sep] = sep := List.getElem_idxOf hlt
  have hdrop := List.drop_eq_getElem_cons hlt
  rw [hget] at hdrop
  rw [← hdrop, List.take_append_drop]

theorem notMem_take_idxOf (sep : α) (xs : List α) : sep ∉ xs.take (xs.idxOf sep) := by
  induction xs with
  | nil => simp
  | cons x xs ih =>
      by_cases hx : x = sep
      · simp [hx]
      · rw [List.idxOf_cons_ne _ hx, List.take_succ_cons, List.mem_cons]
        rintro (heq | hmem)
        · exact hx heq.symm
        · exact ih hmem

end Lines
