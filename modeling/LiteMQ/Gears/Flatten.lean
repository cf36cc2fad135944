import LiteMQ.Foundation.Memory
import LiteMQ.Foundation.IntegerType
import LiteMQ.Foundation.Runs

/-!
# `Ascii::flatten`

`flatten` copies a text and puts one replacement in the place of each run of characters of
a category.  It reserves room for a replacement of every character at once, and writes
through a pointer.  The number of characters to reserve is a product of type `size_t`.

`flattenLoop_eq` says what the loop writes, and that it leaves the buffer just when that
does not fit.  So the result is right as long as the product, as it comes out, is enough
(`flatten_eq_iff`); it is when it does not wrap around.
-/

namespace LiteMQ.Gears.Ascii

open IntegerType (sizeT)
open Runs

/-! ## The category -/

section

variable (isOwned : UInt8 → Bool)

/-- `find_owned(str, end)`: what lies from there on. -/
def findOwned : (str : List UInt8) → List UInt8
  | [] => []
  | ch :: str => if isOwned ch then ch :: str else findOwned str

/-- `find_nonowned(str, end)` -/
def findNonowned : (str : List UInt8) → List UInt8
  | [] => []
  | ch :: str => if isOwned ch = false then ch :: str else findNonowned str

theorem findOwned_eq (str : List UInt8) :
    findOwned isOwned str = str.dropWhile fun ch => !isOwned ch := by
  induction str with
  | nil => rfl
  | cons ch str ih =>
      rw [findOwned, List.dropWhile_cons, ih]
      cases isOwned ch <;> rfl

theorem findNonowned_eq (str : List UInt8) :
    findNonowned isOwned str = str.dropWhile isOwned := by
  induction str with
  | nil => rfl
  | cons ch str ih =>
      rw [findNonowned, List.dropWhile_cons, ih]
      cases isOwned ch <;> rfl

/-- The search stops at a character of the category. -/
theorem exists_findOwned {first : List UInt8} (h : findOwned isOwned first ≠ []) :
    ∃ ch str, findOwned isOwned first = ch :: str ∧ isOwned ch = true := by
  obtain ⟨ch, str, hcurrent⟩ := List.exists_cons_of_ne_nil h
  have hmem : ch ∈ (first.dropWhile fun ch => !isOwned ch).head? := by
    rw [← findOwned_eq, hcurrent]
    rfl
  have hhead := head?_dropWhile_eq ch hmem
  exact ⟨ch, str, hcurrent, by simpa using hhead⟩

/-- Each turn of the loop passes a character of the category. -/
theorem length_findNonowned_lt {first : List UInt8} (h : findOwned isOwned first ≠ []) :
    (findNonowned isOwned (findOwned isOwned first)).length < first.length := by
  obtain ⟨ch, str, hcurrent, howned⟩ := exists_findOwned isOwned h
  have hle := (List.dropWhile_sublist (fun ch => !isOwned ch) (l := first)).length_le
  have hshort := (List.dropWhile_sublist isOwned (l := str)).length_le
  rw [← findOwned_eq, hcurrent, List.length_cons] at hle
  rw [hcurrent, findNonowned_eq, List.dropWhile_cons_of_pos howned]
  omega

end

/-! ## `flatten` -/

/-- The loop of `flatten`: the buffer, and `out`. -/
def flattenLoop (isOwned : UInt8 → Bool) (replacement dest : List UInt8) (out : Nat)
    (first : List UInt8) : Except Fault (List UInt8 × Nat) :=
  if first = [] then .ok (dest, out)
  else do
    let current := findOwned isOwned first
    let text := first.take (first.length - current.length)
    let dest ← Buffer.storeRange dest out text
    if _h : current = [] then .ok (dest, out + text.length)
    else do
      let dest ← Buffer.storeRange dest (out + text.length) replacement
      flattenLoop isOwned replacement dest (out + text.length + replacement.length)
        (findNonowned isOwned current)
termination_by first.length
decreasing_by exact length_findNonowned_lt isOwned (by assumption)

/-- `(last - first) * (REPLACEMENT_SIZE ? REPLACEMENT_SIZE : 1)` -/
def reserved (input replacement : List UInt8) : Nat :=
  sizeT (input.length * (if replacement.length ≠ 0 then replacement.length else 1 : Nat))

/-- `flatten`: the exception of `resize`, which refuses more than `max_size()` characters,
or `dest`. -/
def flatten (maxSize : Nat) (isOwned : UInt8 → Bool) (dest input replacement : List UInt8) :
    Except Fault (Except String (List UInt8)) :=
  if maxSize < reserved input replacement then .ok (.error "std::length_error")
  else do
    let dest := Buffer.resize dest (reserved input replacement) 0
    let (dest, out) ← flattenLoop isOwned replacement dest 0 input
    .ok (.ok (Buffer.resize dest out 0))

/-! ## What the loop writes -/

variable {isOwned : UInt8 → Bool} {replacement : List UInt8}

/-- What `copy(first, current, out)` copies. -/
theorem take_findOwned (first : List UInt8) :
    first.take (first.length - (findOwned isOwned first).length) =
      first.takeWhile fun ch => !isOwned ch := by
  have hsplit := List.takeWhile_append_dropWhile (p := fun ch => !isOwned ch) (l := first)
  rw [findOwned_eq]
  generalize first.takeWhile (fun ch => !isOwned ch) = text at hsplit ⊢
  generalize first.dropWhile (fun ch => !isOwned ch) = current at hsplit ⊢
  subst hsplit
  simp

/-- Without a character of the category everything stays. -/
theorem replaceRuns_of_none {first : List UInt8} (h : findOwned isOwned first = []) :
    replaceRuns isOwned replacement first = first.takeWhile fun ch => !isOwned ch := by
  have hresult := replaceRuns_takeWhile (p := isOwned) replacement first
  rw [← findOwned_eq, h] at hresult
  rw [hresult]
  simp [replaceRuns, runs]

/-- The first run of the category becomes the replacement. -/
theorem replaceRuns_of_some {first : List UInt8} (h : findOwned isOwned first ≠ []) :
    replaceRuns isOwned replacement first = (first.takeWhile fun ch => !isOwned ch) ++
      (replacement ++ replaceRuns isOwned replacement
        (findNonowned isOwned (findOwned isOwned first))) := by
  obtain ⟨ch, str, hstr, howned⟩ := exists_findOwned isOwned h
  have hresult := replaceRuns_takeWhile (p := isOwned) replacement first
  rwa [← findOwned_eq, hstr, replaceRuns_cons replacement howned, ← findNonowned_eq,
    ← hstr] at hresult

/-- The loop writes the result behind what has been written, or leaves the buffer. -/
theorem flattenLoop_eq (before room first : List UInt8) :
    flattenLoop isOwned replacement (before ++ room) before.length first =
      if (replaceRuns isOwned replacement first).length ≤ room.length then
        .ok (before ++ replaceRuns isOwned replacement first ++
            room.drop (replaceRuns isOwned replacement first).length,
          before.length + (replaceRuns isOwned replacement first).length)
      else .error .outOfBounds := by
  induction hn : first.length using Nat.strongRecOn generalizing before room first with
  | ind n ih =>
      rw [flattenLoop]
      simp only [take_findOwned]
      by_cases hfirst : first = []
      · rw [if_pos hfirst, hfirst]
        simp [replaceRuns, runs]
      rw [if_neg hfirst]
      have hlast := @replaceRuns_of_none isOwned replacement first
      have hturn := @replaceRuns_of_some isOwned replacement first
      generalize (first.takeWhile fun ch => !isOwned ch) = text at hlast hturn ⊢
      by_cases hcurrent : findOwned isOwned first = []
      · -- the last turn writes what is left
        rw [hlast hcurrent]
        rcases Nat.lt_or_ge room.length text.length with hlong | hfits
        · rw [Buffer.storeRange_append_error _ hlong, Fault.error_bind,
            if_neg (Nat.not_le.2 hlong)]
        · rw [Buffer.storeRange_append _ hfits, Fault.ok_bind, dif_pos hcurrent, if_pos hfits]
      · -- any other one writes the text up to a run, and the replacement
        have hshort := length_findNonowned_lt isOwned hcurrent
        rw [hturn hcurrent]
        have hrest := fun before room =>
          ih _ (hn ▸ hshort) before room (findNonowned isOwned (findOwned isOwned first)) rfl
        generalize replaceRuns isOwned replacement
          (findNonowned isOwned (findOwned isOwned first)) = rest at hrest ⊢
        rcases Nat.lt_or_ge room.length text.length with hlong | hfits
        · rw [Buffer.storeRange_append_error _ hlong, Fault.error_bind, if_neg]
          rw [List.length_append]
          omega
        rw [Buffer.storeRange_append _ hfits, Fault.ok_bind, dif_neg hcurrent,
          ← List.length_append]
        rcases Nat.lt_or_ge (room.drop text.length).length replacement.length with hlong | hfits'
        · rw [Buffer.storeRange_append_error _ hlong, Fault.error_bind, if_neg]
          rw [List.length_drop] at hlong
          rw [List.length_append, List.length_append]
          omega
        rw [Buffer.storeRange_append _ hfits', Fault.ok_bind, ← List.length_append, hrest]
        have hiff : rest.length ≤ ((room.drop text.length).drop replacement.length).length ↔
            (text ++ (replacement ++ rest)).length ≤ room.length := by
          rw [List.length_drop] at hfits'
          simp only [List.length_append, List.length_drop]
          omega
        by_cases hroom : (text ++ (replacement ++ rest)).length ≤ room.length
        · rw [if_pos hroom, if_pos (hiff.2 hroom)]
          simp only [List.drop_drop, List.length_append, List.append_assoc, Nat.add_assoc]
        · rw [if_neg hroom, if_neg (mt hiff.1 hroom)]

/-! ## `flatten` -/

theorem reserved_eq (input replacement : List UInt8) :
    reserved input replacement = input.length * max 1 replacement.length % 2 ^ 64 := by
  have hsize : (if replacement.length ≠ 0 then replacement.length else 1) =
      max 1 replacement.length := by
    split <;> omega
  rw [reserved, hsize, sizeT]
  generalize max 1 replacement.length = size
  have hcast : (input.length : Int) * (size : Int) % 2 ^ 64 =
      ((input.length * size % 2 ^ 64 : Nat) : Int) := by push_cast; rfl
  rw [hcast, Int.toNat_natCast]

/-- What `flatten` does when `resize` does not refuse. -/
theorem flatten_of_reserved {maxSize : Nat} (dest : List UInt8) {input : List UInt8}
    (hmax : reserved input replacement ≤ maxSize) :
    flatten maxSize isOwned dest input replacement =
      if (replaceRuns isOwned replacement input).length ≤ reserved input replacement then
        .ok (.ok (replaceRuns isOwned replacement input))
      else .error .outOfBounds := by
  have hloop := @flattenLoop_eq isOwned replacement []
    (Buffer.resize dest (reserved input replacement) 0) input
  rw [List.nil_append, List.length_nil, List.nil_append, Buffer.length_resize] at hloop
  rw [flatten, if_neg (Nat.not_lt.2 hmax)]
  simp only [hloop]
  split
  · rw [Fault.ok_bind]
    simp [Buffer.resize]
  · rfl

/-- `flatten` is exact just when the product that it reserves has room for the result as it
comes out in 64 bits, and is no more than `resize` takes; so it is when it does not wrap
around. -/
theorem flatten_eq_iff (maxSize : Nat) (isOwned : UInt8 → Bool)
    (dest input replacement : List UInt8) :
    (flatten maxSize isOwned dest input replacement =
        .ok (.ok (replaceRuns isOwned replacement input)) ↔
      input.length * max 1 replacement.length % 2 ^ 64 ≤ maxSize ∧
        input.countP (fun ch => !isOwned ch) + markedRuns isOwned input * replacement.length ≤
          input.length * max 1 replacement.length % 2 ^ 64) ∧
      (input.length * max 1 replacement.length ≤ min maxSize (2 ^ 64 - 1) →
        flatten maxSize isOwned dest input replacement =
          .ok (.ok (replaceRuns isOwned replacement input))) := by
  have hiff : flatten maxSize isOwned dest input replacement =
        .ok (.ok (replaceRuns isOwned replacement input)) ↔
      input.length * max 1 replacement.length % 2 ^ 64 ≤ maxSize ∧
        input.countP (fun ch => !isOwned ch) + markedRuns isOwned input * replacement.length ≤
          input.length * max 1 replacement.length % 2 ^ 64 := by
    rw [← reserved_eq, ← length_replaceRuns]
    rcases Nat.lt_or_ge maxSize (reserved input replacement) with hmax | hmax
    · rw [flatten, if_pos hmax]
      simp [hmax]
    · rw [flatten_of_reserved dest hmax]
      split
      · rename_i hroom
        exact iff_of_true rfl ⟨hmax, hroom⟩
      · rename_i hroom
        simp [hroom]
  refine ⟨hiff, fun hproduct => hiff.2 ?_⟩
  have hlength := length_replaceRuns_le (p := isOwned) replacement input
  rw [length_replaceRuns] at hlength
  have hmod : input.length * max 1 replacement.length % 2 ^ 64 =
      input.length * max 1 replacement.length := Nat.mod_eq_of_lt (by omega)
  rw [hmod]
  exact ⟨by omega, hlength⟩

/-- A text of one run whose product wraps around to 0: nothing is reserved, and the
replacement is written all the same. -/
theorem flatten_of_product_zero {maxSize m n : Nat} (hm : 0 < m) (hn : 0 < n)
    (hproduct : n * m % 2 ^ 64 = 0) (ch x : UInt8) :
    flatten maxSize (fun _ => true) [] (List.replicate n ch) (List.replicate m x) =
      .error .outOfBounds := by
  have hreserved : reserved (List.replicate n ch) (List.replicate m x) = 0 := by
    rw [reserved_eq, List.length_replicate, List.length_replicate,
      Nat.max_eq_right hm, hproduct]
  obtain ⟨k, rfl⟩ := Nat.exists_eq_succ_of_ne_zero (Nat.pos_iff_ne_zero.1 hn)
  have hresult : m ≤ (replaceRuns (fun _ => true) (List.replicate m x)
      (List.replicate (k + 1) ch)).length := by
    rw [List.replicate_succ, replaceRuns_cons _ rfl, List.length_append, List.length_replicate]
    exact Nat.le_add_right _ _
  rw [flatten_of_reserved [] (by rw [hreserved]; exact Nat.zero_le _), hreserved,
    if_neg (Nat.not_le.2 (Nat.lt_of_lt_of_le hm hresult))]

/-- A text of 2 ^ 33 spaces, each of which would become 2 ^ 31 characters. -/
theorem flatten_wraps :
    flatten (2 ^ 63 - 1) (fun _ => true) [] (List.replicate (2 ^ 33) 32)
        (List.replicate (2 ^ 31) 45) = .error .outOfBounds ∧
      flatten (2 ^ 63 - 1) (fun _ => true) [] (List.replicate (2 ^ 33) 32)
        (List.replicate (2 ^ 31) 45) ≠ .ok (.ok (replaceRuns (fun _ => true)
          (List.replicate (2 ^ 31) 45) (List.replicate (2 ^ 33) 32))) := by
  have hfault : flatten (2 ^ 63 - 1) (fun _ => true) [] (List.replicate (2 ^ 33) 32)
      (List.replicate (2 ^ 31) 45) = .error .outOfBounds :=
    flatten_of_product_zero (by decide) (by decide) (by decide) 32 45
  refine ⟨hfault, ?_⟩
  rw [hfault]
  intro h
  cases h

end LiteMQ.Gears.Ascii
