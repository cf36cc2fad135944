import LiteMQ.Foundation.Memory
import LiteMQ.Foundation.IntegerType

/-!
# `strlcpy` and `strlcat`

Both copy a NUL-terminated text into a buffer of a given size, as much of it as fits with
its NUL, and return the length that they would have liked.  The copy itself is the same
loop in both (`copyText_eq`); `strlcat` first looks for the end of what the buffer holds,
and its size wraps around to the greatest one when there is none.
-/

namespace LiteMQ.Gears.StringManip

open IntegerType (sizeT)

/-! ## The source -/

/-- `while (*src++);`: the place behind the NUL. -/
def passText : (src : List UInt8) → (s : Nat) → Except Fault Nat
  | [], _ => .error .outOfBounds
  | ch :: src, s => if ch = 0 then .ok (s + 1) else passText src (s + 1)

/-- `while (--size) ...` and what follows it, from the first decrement on; the destination,
and where `src` ends up. -/
def copyText (dst : List UInt8) (d : Nat) (src : List UInt8) (s : Nat) :
    (size : Nat) → Except Fault (List UInt8 × Nat)
  | 0 => do
      let dst ← Buffer.store dst d 0
      let s ← passText src s
      .ok (dst, s)
  | size + 1 => do
      let ch ← Buffer.load src 0
      let dst ← Buffer.store dst d ch
      if ch = 0 then .ok (dst, s + 1) else copyText dst (d + 1) (src.drop 1) (s + 1) size

/-- `strlcpy`: what it returns, and the destination. -/
def strlcpy (dst src : List UInt8) (size : Nat) : Except Fault (Nat × List UInt8) :=
  if size ≠ 0 then do
    let (dst, s) ← copyText dst 0 src 0 (size - 1)
    .ok (s - 1, dst)
  else do
    let s ← passText src 0
    .ok (s - 1, dst)

/-- `while (size-- && *dst) dst++;`: the pointer and the size behind it. -/
def findEnd (dst : List UInt8) (d : Nat) : (size : Nat) → Except Fault (Nat × Nat)
  | 0 => .ok (d, sizeT (0 - 1))
  | size + 1 => do
      let ch ← Buffer.load dst d
      if ch = 0 then .ok (d, size) else findEnd dst (d + 1) size

/-- `strlcat`: what it returns, and the destination. -/
def strlcat (dst src : List UInt8) (size : Nat) : Except Fault (Nat × List UInt8) := do
  let dstLen := size
  let (d, size) ← findEnd dst 0 size
  let size := sizeT (size + 1)
  let dstLen := sizeT (dstLen - size)
  if size ≠ 0 then do
    let (dst, s) ← copyText dst d src 0 (size - 1)
    .ok (s + dstLen - 1, dst)
  else do
    let s ← passText src 0
    .ok (s + dstLen - 1, dst)

/-! ## The loops -/

/-- A buffer behind a copy: what fits of the text, a NUL, and what was there. -/
def terminated (room text : List UInt8) : List UInt8 :=
  let fits := min text.length (room.length - 1)
  text.take fits ++ 0 :: room.drop (fits + 1)

theorem terminated_nil (x : UInt8) (room : List UInt8) :
    terminated (x :: room) [] = 0 :: room := by
  simp [terminated]

theorem terminated_single (x : UInt8) (text : List UInt8) : terminated [x] text = [0] := by
  simp [terminated]

theorem terminated_cons (x y : UInt8) (room : List UInt8) (ch : UInt8) (text : List UInt8) :
    terminated (x :: y :: room) (ch :: text) = ch :: terminated (y :: room) text := by
  simp [terminated, Nat.succ_min_succ]

theorem terminated_of_lt {room text : List UInt8} (h : text.length < room.length) :
    terminated room text = text ++ 0 :: room.drop (text.length + 1) := by
  have hfits : min text.length (room.length - 1) = text.length := by omega
  rw [terminated, hfits, List.take_length]

theorem terminated_of_le {room text : List UInt8} (hroom : room ≠ [])
    (h : room.length ≤ text.length) :
    terminated room text = text.take (room.length - 1) ++ [0] := by
  have hpos : 0 < room.length := List.length_pos_iff.2 hroom
  have hfits : min text.length (room.length - 1) = room.length - 1 := by omega
  have hrest : room.drop (room.length - 1 + 1) = [] := List.drop_eq_nil_of_le (by omega)
  rw [terminated, hfits, hrest]

variable {text more : List UInt8}

theorem passText_eq (htext : 0 ∉ text) (s : Nat) :
    passText (text ++ 0 :: more) s = .ok (s + text.length + 1) := by
  induction text generalizing s with
  | nil => rfl
  | cons ch text ih =>
      obtain ⟨hch, htext⟩ := List.ne_and_not_mem_of_not_mem_cons htext
      rw [List.cons_append, passText, if_neg (Ne.symm hch), ih htext, List.length_cons]
      congr 1
      omega

/-! One element further in a buffer. -/

section

variable (before : List UInt8) (ch : UInt8) (dst beyond : List UInt8)

theorem load_next : Buffer.load (before ++ ch :: dst ++ beyond) before.length = .ok ch := by
  rw [List.append_assoc]
  exact Buffer.load_append before ch (dst ++ beyond)

theorem store_next (x : UInt8) : Buffer.store (before ++ x :: dst ++ beyond) before.length ch =
    .ok (before ++ [ch] ++ dst ++ beyond) := by
  rw [List.append_assoc, List.cons_append, Buffer.store_append]
  simp

theorem append_next : before ++ ch :: dst ++ beyond = before ++ [ch] ++ dst ++ beyond := by
  simp

theorem length_next : (before ++ [ch]).length = before.length + 1 := List.length_append

end

/-- The copy into the room behind a part of the buffer. -/
theorem copyText_eq (htext : 0 ∉ text) (before : List UInt8) {room : List UInt8} {size : Nat}
    (hroom : room.length = size + 1) (beyond : List UInt8) (s : Nat) :
    copyText (before ++ room ++ beyond) before.length (text ++ 0 :: more) s size =
      .ok (before ++ terminated room text ++ beyond, s + text.length + 1) := by
  induction size generalizing before room text s with
  | zero =>
      obtain ⟨x, rfl⟩ := List.length_eq_one_iff.1 hroom
      rw [copyText, List.append_assoc, List.singleton_append, Buffer.store_append,
        Fault.ok_bind, passText_eq htext, Fault.ok_bind, terminated_single, List.append_assoc,
        List.singleton_append]
  | succ size ih =>
      obtain ⟨x, rest, rfl⟩ := List.exists_cons_of_length_eq_add_one hroom
      obtain ⟨y, room, rfl⟩ := List.exists_cons_of_length_eq_add_one (Nat.succ.inj hroom)
      have hroom' : (y :: room).length = size + 1 := by simpa using hroom
      cases text with
      | nil =>
          rw [List.nil_append, copyText, Buffer.load_cons, Fault.ok_bind, store_next,
            Fault.ok_bind, if_pos rfl, terminated_nil]
          simp
      | cons ch text =>
          obtain ⟨hch, htext⟩ := List.ne_and_not_mem_of_not_mem_cons htext
          rw [List.cons_append, copyText, Buffer.load_cons, Fault.ok_bind, store_next,
            Fault.ok_bind, if_neg (Ne.symm hch), List.drop_one, List.tail_cons,
            ← length_next before ch, ih htext _ hroom', terminated_cons,
            append_next before ch (terminated (y :: room) text), List.length_cons]
          congr 2
          omega

/-- The end of what a buffer holds. -/
theorem findEnd_of_held (before : List UInt8) {held : List UInt8} (hheld : 0 ∉ held)
    (rest beyond : List UInt8) :
    findEnd (before ++ (held ++ 0 :: rest) ++ beyond) before.length (held ++ 0 :: rest).length =
      .ok (before.length + held.length, rest.length) := by
  induction held generalizing before with
  | nil =>
      have hload : Buffer.load (before ++ 0 :: rest ++ beyond) before.length = .ok (0 : UInt8) := by
        rw [List.append_assoc]
        exact Buffer.load_append before 0 (rest ++ beyond)
      rw [List.nil_append, List.length_cons, findEnd, hload]
      rfl
  | cons ch held ih =>
      obtain ⟨hch, hheld⟩ := List.ne_and_not_mem_of_not_mem_cons hheld
      rw [List.cons_append, List.length_cons, findEnd, load_next, Fault.ok_bind,
        if_neg (Ne.symm hch), ← length_next before ch, append_next, ih _ hheld, length_next,
        List.length_cons]
      congr 2
      omega

/-- A buffer without an end: the size has wrapped around. -/
theorem findEnd_of_not_mem (before : List UInt8) {dst : List UInt8} (hdst : 0 ∉ dst)
    (beyond : List UInt8) :
    findEnd (before ++ dst ++ beyond) before.length dst.length =
      .ok (before.length + dst.length, sizeT (0 - 1)) := by
  induction dst generalizing before with
  | nil => rfl
  | cons ch dst ih =>
      obtain ⟨hch, hrest⟩ := List.ne_and_not_mem_of_not_mem_cons hdst
      rw [List.length_cons, findEnd, load_next, Fault.ok_bind, if_neg (Ne.symm hch),
        ← length_next before ch, append_next, ih _ hrest, length_next]
      congr 2
      omega

/-! ## The two functions -/

theorem strlcpy_eq (htext : 0 ∉ text) (dst beyond : List UInt8) :
    strlcpy (dst ++ beyond) (text ++ 0 :: more) dst.length =
      .ok (text.length, (if dst = [] then [] else terminated dst text) ++ beyond) := by
  rcases List.eq_nil_or_concat dst with rfl | ⟨_, _, hdst⟩
  · rw [strlcpy, if_neg (by simp), passText_eq htext, Fault.ok_bind]
    simp
  · have hne : dst ≠ [] := by simp [hdst]
    have hlen : dst.length ≠ 0 := by simpa using hne
    have hroom : dst.length = dst.length - 1 + 1 := by omega
    have hcopy : copyText (dst ++ beyond) 0 (text ++ 0 :: more) 0 (dst.length - 1) =
        .ok (terminated dst text ++ beyond, text.length + 1) := by
      simpa using copyText_eq htext [] hroom beyond 0
    rw [strlcpy, if_pos hlen, hcopy, Fault.ok_bind, if_neg hne]
    rfl

theorem strlcat_of_held (htext : 0 ∉ text) {held : List UInt8} (hheld : 0 ∉ held)
    (rest beyond : List UInt8) (hsize : (held ++ 0 :: rest).length < 2 ^ 64) :
    strlcat (held ++ 0 :: rest ++ beyond) (text ++ 0 :: more) (held ++ 0 :: rest).length =
      .ok (held.length + text.length, held ++ terminated (0 :: rest) text ++ beyond) := by
  have hend := findEnd_of_held [] hheld rest beyond
  have hcopy : copyText (held ++ 0 :: rest ++ beyond) held.length (text ++ 0 :: more) 0
      rest.length = .ok (held ++ terminated (0 :: rest) text ++ beyond, 0 + text.length + 1) :=
    copyText_eq htext held List.length_cons beyond 0
  have hlen : (held ++ 0 :: rest).length = held.length + (rest.length + 1) := by simp
  have hback : sizeT (rest.length + 1) = rest.length + 1 := by
    have hlt : rest.length + 1 < 2 ^ 64 := by omega
    exact_mod_cast IntegerType.sizeT_of_nat hlt
  have hdst : sizeT ((held ++ 0 :: rest).length - (rest.length + 1 : Nat)) = held.length := by
    rw [IntegerType.sizeT_sub (by omega) hsize]
    omega
  rw [List.nil_append, List.length_nil, Nat.zero_add] at hend
  rw [strlcat, hend, Fault.ok_bind]
  simp only [hback, hdst]
  rw [if_pos (Nat.succ_ne_zero _), Nat.add_sub_cancel, hcopy, Fault.ok_bind]
  congr 2
  omega

theorem strlcat_of_not_mem (htext : 0 ∉ text) {dst : List UInt8} (hdst : 0 ∉ dst)
    (hsize : dst.length < 2 ^ 64) (beyond : List UInt8) :
    strlcat (dst ++ beyond) (text ++ 0 :: more) dst.length =
      .ok (dst.length + text.length, dst ++ beyond) := by
  have hend := findEnd_of_not_mem [] hdst beyond
  -- The wrapped size comes back to 0 with the increment.
  have hback : sizeT ((sizeT (0 - 1) : Nat) + 1) = 0 := by decide
  have hdst : sizeT (dst.length - (0 : Nat)) = dst.length :=
    IntegerType.sizeT_sub (Nat.zero_le _) hsize
  rw [List.nil_append, List.length_nil, Nat.zero_add] at hend
  rw [strlcat, hend, Fault.ok_bind]
  simp only [hback, hdst]
  rw [if_neg (by simp), passText_eq htext, Fault.ok_bind]
  congr 2
  omega

/-- What lies before the first NUL. -/
theorem takeWhile_held {held : List UInt8} (hheld : 0 ∉ held) (rest : List UInt8) :
    (held ++ 0 :: rest).takeWhile (· ≠ 0) = held := by
  have hall : ∀ ch ∈ held, decide (ch ≠ 0) = true := by
    intro ch hch
    exact decide_eq_true (ne_of_mem_of_not_mem hch hheld)
  rw [List.takeWhile_append_of_pos hall, List.takeWhile_cons_of_neg (by simp), List.append_nil]

/-- `strlcpy` and `strlcat` leave what fits of the text and its NUL, return the length that
they would have liked, and stay within the size. -/
theorem strlcpy_strlcat_bsd {src : List UInt8} (hsrc : 0 ∉ src) (more dst beyond : List UInt8)
    (hsize : dst.length < 2 ^ 64) :
    strlcpy (dst ++ beyond) (src ++ 0 :: more) dst.length =
        .ok (src.length, (if dst = [] then [] else
          src.take (min src.length (dst.length - 1)) ++
            0 :: dst.drop (min src.length (dst.length - 1) + 1)) ++ beyond) ∧
      strlcat (dst ++ beyond) (src ++ 0 :: more) dst.length =
        .ok (min dst.length ((dst ++ beyond).takeWhile (· ≠ 0)).length + src.length,
          (if 0 ∈ dst then
            let held := dst.takeWhile (· ≠ 0)
            let fits := min src.length (dst.length - 1 - held.length)
            held ++ src.take fits ++ 0 :: dst.drop (held.length + fits + 1)
          else dst) ++ beyond) := by
  constructor
  · rw [strlcpy_eq hsrc]
    by_cases hdst : dst = []
    · rw [if_pos hdst, if_pos hdst]
    · rw [if_neg hdst, if_neg hdst, terminated]
  by_cases hdst : 0 ∈ dst
  · obtain ⟨held, rest, rfl, hheld⟩ := List.eq_append_cons_of_mem hdst
    have htext : (held ++ 0 :: rest ++ beyond).takeWhile (· ≠ 0) = held := by
      rw [List.append_assoc, List.cons_append]
      exact takeWhile_held hheld _
    have hmin : min (held ++ 0 :: rest).length held.length = held.length := by simp
    have hroom : (held ++ 0 :: rest).length - 1 - held.length = (0 :: rest).length - 1 := by
      simp
    have hdrop : ∀ n,
        (held ++ 0 :: rest).drop (held.length + n + 1) = (0 :: rest).drop (n + 1) := by
      intro n
      rw [Nat.add_assoc, List.drop_append]
      simp
    rw [strlcat_of_held hsrc hheld _ _ hsize, if_pos hdst, htext, takeWhile_held hheld, hmin]
    simp only [hroom, hdrop, terminated, List.append_assoc]
  · have hlen : dst.length ≤ ((dst ++ beyond).takeWhile (· ≠ 0)).length := by
      have hall : ∀ ch ∈ dst, decide (ch ≠ 0) = true := by
        intro ch hch
        exact decide_eq_true (ne_of_mem_of_not_mem hch hdst)
      rw [List.takeWhile_append_of_pos hall, List.length_append]
      exact Nat.le_add_right _ _
    rw [strlcat_of_not_mem hsrc hdst hsize, if_neg hdst, Nat.min_eq_left hlen]

/-- Both with room for part of the text, in a buffer that holds two bytes. -/
theorem strlcpy_strlcat_bsd_example :
    strlcpy [97, 98, 0, 0, 7] [99, 100, 101, 102, 103, 0] 4 =
        .ok (5, [99, 100, 101, 0, 7]) ∧
      strlcat [97, 98, 0, 0, 7] [99, 100, 101, 102, 103, 0] 4 =
        .ok (7, [97, 98, 99, 0, 7]) :=
  strlcpy_strlcat_bsd (show 0 ∉ [99, 100, 101, 102, 103] by decide) [] [97, 98, 0, 0] [7]
    (by decide)

end LiteMQ.Gears.StringManip
