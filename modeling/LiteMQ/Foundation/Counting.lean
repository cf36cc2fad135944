import Mathlib.Algebra.BigOperators.Group.Finset.Piecewise
import Mathlib.Algebra.BigOperators.Group.Finset.Basic
import Mathlib.Algebra.Order.BigOperators.Group.Finset
import Mathlib.Algebra.BigOperators.Ring.Finset
import Mathlib.Data.Fintype.BigOperators

/-!
# Sums over threads

An invariant that counts threads is a sum over all of them of a weight of the
local state.  A step changes one local state, so it changes the sum by one
difference.
-/

namespace Counting

open Finset Function

variable {ι : Type*} [Fintype ι] {α : Type*}

/-- The sum of the weights of all local states. -/
def total (weight : α → Int) (f : ι → α) : Int := ∑ i, weight (f i)

/-- One changed local state changes the sum by the difference of its weights. -/
theorem total_update [DecidableEq ι] (weight : α → Int) (f : ι → α) (i : ι) (x : α) :
    total weight (update f i x) = total weight f + (weight x - weight (f i)) := by
  have hcomp : (fun k => weight (update f i x k)) = update (fun k => weight (f k)) i (weight x) := by
    funext k
    rcases eq_or_ne k i with rfl | hne
    · simp
    · simp [hne]
  have hsplit : weight (f i) + ∑ k ∈ univ.erase i, weight (f k) = ∑ k, weight (f k) :=
    add_sum_erase univ (fun k => weight (f k)) (mem_univ i)
  rw [total, total, hcomp, sum_update_of_mem (mem_univ i), sdiff_singleton_eq_erase, ← hsplit]
  omega

/-- A sum of weights of at least `0` is at least each of them. -/
theorem le_total {weight : α → Int} {f : ι → α} (hnonneg : ∀ k, 0 ≤ weight (f k)) (i : ι) :
    weight (f i) ≤ total weight f :=
  single_le_sum (fun k _ => hnonneg k) (mem_univ i)

/-- A sum of weights of at least `0` is at least any two of them together. -/
theorem add_le_total [DecidableEq ι] {weight : α → Int} {f : ι → α}
    (hnonneg : ∀ k, 0 ≤ weight (f k)) {i j : ι} (hne : i ≠ j) :
    weight (f i) + weight (f j) ≤ total weight f := by
  have hsplit : weight (f i) + ∑ k ∈ univ.erase i, weight (f k) = total weight f :=
    add_sum_erase univ (fun k => weight (f k)) (mem_univ i)
  have hrest : weight (f j) ≤ ∑ k ∈ univ.erase i, weight (f k) :=
    single_le_sum (f := fun k => weight (f k)) (fun k _ => hnonneg k)
      (mem_erase.mpr ⟨hne.symm, mem_univ j⟩)
  omega

/-- The number of local states with a property, as a sum. -/
theorem total_eq_card (p : α → Prop) [DecidablePred p] (f : ι → α) :
    total (fun x => if p x then 1 else 0) f = (univ.filter fun i => p (f i)).card := by
  simp only [total, sum_boole]

end Counting
