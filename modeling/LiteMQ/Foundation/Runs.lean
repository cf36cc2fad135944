import Mathlib.Data.List.SplitBy
import Mathlib.Data.List.TakeWhile
import Mathlib.Data.List.Count

/-!
# Runs of marked elements

The maximal runs of a list are its longest parts in which all elements are marked or none
is.  `replaceRuns` puts one text in the place of each run of marked elements.

From the front a list is a run without marks and then one with marks; the two equations
`replaceRuns_takeWhile` and `replaceRuns_cons` follow it, and `length_replaceRuns` counts
what comes out.
-/

namespace Runs

variable {α : Type} (p : α → Bool)

/-- The maximal runs of a list. -/
def runs (xs : List α) : List (List α) := xs.splitBy fun a b => p a == p b

/-- The number of runs of marked elements. -/
def markedRuns (xs : List α) : Nat := (runs p xs).countP fun run => run.all p

/-- Each run of marked elements replaced. -/
def replaceRuns (replacement xs : List α) : List α :=
  (runs p xs).flatMap fun run => if run.all p then replacement else run

variable {p}

/-! ## Runs from the front -/

theorem isChain_of_forall {b : Bool} {run : List α} (h : ∀ x ∈ run, p x = b) :
    run.IsChain fun x y => p x == p y := by
  induction run with
  | nil => exact .nil
  | cons x run ih =>
      cases run with
      | nil => exact .singleton x
      | cons y run =>
          obtain ⟨hx, hrest⟩ := List.forall_mem_cons.1 h
          refine .cons_cons ?_ (ih hrest)
          rw [hx, hrest y List.mem_cons_self]
          exact beq_self_eq_true b

/-- A run ends where the marks change. -/
theorem runs_append {b : Bool} {run : List α} (hne : run ≠ []) (hrun : ∀ x ∈ run, p x = b)
    {rest : List α} (hrest : ∀ x ∈ rest.head?, p x = !b) :
    runs p (run ++ rest) = run :: runs p rest := by
  have hsplit : ∀ x ∈ run.getLast?, ∀ y ∈ rest.head?, (p x == p y) = false := by
    intro x hx y hy
    rw [hrun x (List.mem_of_mem_getLast? hx), hrest y hy]
    cases b <;> rfl
  rw [runs, List.splitBy_append hsplit, List.splitBy_of_isChain hne (isChain_of_forall hrun)]
  rfl

theorem head?_dropWhile_eq {xs : List α} {q : α → Bool} :
    ∀ x ∈ (xs.dropWhile q).head?, q x = false := by
  intro x hx
  have hhead := List.head?_dropWhile_not q xs
  rw [hx] at hhead
  simpa using hhead

/-- The elements without marks in front stay. -/
theorem replaceRuns_takeWhile (replacement xs : List α) :
    replaceRuns p replacement xs =
      xs.takeWhile (fun x => !p x) ++ replaceRuns p replacement (xs.dropWhile fun x => !p x) := by
  have hplain : ∀ x ∈ xs.takeWhile (fun x => !p x), p x = false := by
    intro x hx
    simpa using List.mem_takeWhile_imp hx
  have hrest : ∀ x ∈ (xs.dropWhile fun x => !p x).head?, p x = !false := by
    intro x hx
    simpa using head?_dropWhile_eq x hx
  by_cases hne : xs.takeWhile (fun x => !p x) = []
  · have hdrop : xs.dropWhile (fun x => !p x) = xs := by
      have hsplit := List.takeWhile_append_dropWhile (p := fun x => !p x) (l := xs)
      rwa [hne, List.nil_append] at hsplit
    rw [hne, hdrop, List.nil_append]
  · obtain ⟨x, hx⟩ := List.exists_mem_of_ne_nil _ hne
    have hall : (xs.takeWhile fun x => !p x).all p = false := by
      rw [List.all_eq_false]
      exact ⟨x, hx, by rw [hplain x hx]; decide⟩
    conv_lhs => rw [← List.takeWhile_append_dropWhile (p := fun x => !p x) (l := xs)]
    rw [replaceRuns, runs_append hne hplain hrest, List.flatMap_cons, if_neg (by simp [hall])]
    rfl

/-- The marked elements in front are replaced together. -/
theorem replaceRuns_cons (replacement : List α) {x : α} (hx : p x = true) (xs : List α) :
    replaceRuns p replacement (x :: xs) =
      replacement ++ replaceRuns p replacement ((x :: xs).dropWhile p) := by
  have hmarked : ∀ y ∈ (x :: xs).takeWhile p, p y = true := fun y hy => List.mem_takeWhile_imp hy
  have hne : (x :: xs).takeWhile p ≠ [] := by
    rw [List.takeWhile_cons_of_pos hx]
    exact List.cons_ne_nil _ _
  have hrest : ∀ y ∈ ((x :: xs).dropWhile p).head?, p y = !true := head?_dropWhile_eq
  conv_lhs => rw [← List.takeWhile_append_dropWhile (p := p) (l := x :: xs)]
  rw [replaceRuns, runs_append hne hmarked hrest, List.flatMap_cons,
    if_pos (List.all_eq_true.2 hmarked)]
  rfl

/-! ## How long it becomes -/

/-- In a run all elements are marked, or none is. -/
theorem uniform_of_mem_runs {xs run : List α} (h : run ∈ runs p xs) :
    ∃ b, ∀ x ∈ run, p x = b := by
  have hchain : run.IsChain fun x y => p x == p y := List.isChain_of_mem_splitBy h
  clear h
  induction run with
  | nil => exact ⟨true, fun x hx => by cases hx⟩
  | cons x run ih =>
      obtain ⟨b, hb⟩ := ih hchain.tail
      refine ⟨p x, List.forall_mem_cons.2 ⟨rfl, ?_⟩⟩
      cases run with
      | nil =>
          intro y hy
          cases hy
      | cons y run =>
          have hxy : p x = p y := by simpa using (List.isChain_cons_cons.1 hchain).1
          rw [hxy, hb y List.mem_cons_self]
          exact hb

-- Induction on the runs; each one is marked as a whole or not at all.
theorem length_flatMap_runs (replacement : List α) {groups : List (List α)}
    (h : ∀ run ∈ groups, ∃ b, ∀ x ∈ run, p x = b) :
    (groups.flatMap fun run => if run.all p then replacement else run).length =
      groups.flatten.countP (fun x => !p x) +
        groups.countP (fun run => run.all p) * replacement.length := by
  induction groups with
  | nil => simp
  | cons run groups ih =>
      obtain ⟨⟨b, hb⟩, hrest⟩ := List.forall_mem_cons.1 h
      rw [List.flatMap_cons, List.length_append, ih hrest, List.flatten_cons, List.countP_append]
      cases hall : run.all p with
      | true =>
          have hnone : run.countP (fun x => !p x) = 0 := by
            rw [List.countP_eq_zero]
            intro x hx
            simp [List.all_eq_true.1 hall x hx]
          rw [List.countP_cons, hall, hnone, if_pos rfl, if_pos rfl, Nat.succ_mul]
          omega
      | false =>
          obtain ⟨x, hx, hpx⟩ := List.all_eq_false.1 hall
          have hplain : run.countP (fun x => !p x) = run.length := by
            rw [List.countP_eq_length]
            intro y hy
            rw [hb x hx] at hpx
            rw [hb y hy]
            simpa using hpx
          rw [List.countP_cons, hall, hplain, if_neg (by decide), if_neg (by decide),
            Nat.add_zero]
          omega

/-- The elements without marks stay, and each marked run becomes the replacement. -/
theorem length_replaceRuns (replacement xs : List α) :
    (replaceRuns p replacement xs).length =
      xs.countP (fun x => !p x) + markedRuns p xs * replacement.length := by
  have hgroups : ∀ run ∈ runs p xs, ∃ b, ∀ x ∈ run, p x = b :=
    fun run hrun => uniform_of_mem_runs hrun
  have h := length_flatMap_runs replacement hgroups
  rw [show (runs p xs).flatten = xs from List.flatten_splitBy _ xs] at h
  exact h

theorem countP_all_le {groups : List (List α)} (h : [] ∉ groups) :
    groups.countP (fun run => run.all p) ≤ groups.flatten.countP p := by
  induction groups with
  | nil => exact Nat.le_refl 0
  | cons run groups ih =>
      obtain ⟨hne, hrest⟩ := List.ne_and_not_mem_of_not_mem_cons h
      have hle := ih hrest
      rw [List.flatten_cons, List.countP_append]
      cases hall : run.all p with
      | true =>
          have hpos : 0 < run.length := List.length_pos_iff.2 (Ne.symm hne)
          have hcount : run.countP p = run.length :=
            List.countP_eq_length.2 (List.all_eq_true.1 hall)
          rw [List.countP_cons, hall, if_pos rfl]
          omega
      | false =>
          rw [List.countP_cons, hall, if_neg (by decide)]
          omega

/-- So many elements suffice for the result. -/
theorem length_replaceRuns_le (replacement xs : List α) :
    (replaceRuns p replacement xs).length ≤ xs.length * max 1 replacement.length := by
  have hmarked : markedRuns p xs ≤ xs.countP p := by
    have h := countP_all_le (p := p) (List.nil_notMem_splitBy (fun a b => p a == p b) xs)
    rwa [List.flatten_splitBy] at h
  have hcount : xs.length = xs.countP p + xs.countP (fun x => !p x) := by
    rw [List.length_eq_countP_add_countP p]
    simp
  rw [length_replaceRuns, hcount, Nat.add_mul, Nat.add_comm]
  exact Nat.add_le_add
    (Nat.mul_le_mul hmarked (Nat.le_max_right 1 _))
    (Nat.le_mul_of_pos_right _ (Nat.lt_of_lt_of_le Nat.one_pos (Nat.le_max_left 1 _)))

end Runs
