import LiteMQ.Gears.IntToStr
import LiteMQ.Gears.TimeShortForms

/-!
# `to_str_` with its buffer

The formatter as it writes to memory.  It keeps the pointer and the size of what it has
written apart, and for `%F` and `%T` it calls itself with the rest of the buffer.

The buffer is the memory of `length` characters that it is given, so that a store anywhere
else faults.  There is none, and the size that is returned is that of the whole expansion
of the format, or 0 (`toStrAt_spec`).
-/

namespace LiteMQ.Gears
namespace ExtendedTime

open StringManip (intToStr)

/-- `str` as an index of the buffer, and `size`. -/
structure Out where
  buf : List Char
  str : Nat
  size : Nat

/-- `*str++ = c`, when there is room. -/
def putChar (o : Out) (length : Nat) (c : Char) : Except Fault (Bool × Out) :=
  if length = o.size then .ok (false, o)
  else do
    let buf ← Buffer.store o.buf o.str c
    .ok (true, ⟨buf, o.str + 1, o.size + 1⟩)

/-- `add_str` -/
def addStr (o : Out) (length : Nat) (src : List Char) : Except Fault (Bool × Out) :=
  if o.size + src.length > length then .ok (false, o)
  else do
    let buf ← Buffer.storeRange o.buf o.str src
    .ok (true, ⟨buf, o.str + src.length, o.size + src.length⟩)

/-- The loop of `add_num<SIZE>`, which fills its own buffer from the end. -/
def digitLoop : (i number : Nat) → (buf : List Char) → Except Fault (List Char)
  | 0, _, buf => .ok buf
  | i + 1, number, buf => do
      let buf ← Buffer.store buf i (digitChar (number % 10))
      digitLoop i (number / 10) buf

/-- `add_num<SIZE>` -/
def addDigits (size : Nat) (o : Out) (length number : Nat) : Except Fault (Bool × Out) := do
  let buf ← digitLoop size number (List.replicate size ' ')
  addStr o length buf

/-- The character of a byte. -/
def charOf (c : UInt8) : Char := Char.ofNat c.toNat

/-- `add_num`, with `int_to_str` and a buffer of 64 characters. -/
def addNum (T : IntegerType) (o : Out) (length number : Nat) : Except Fault (Bool × Out) :=
  match intToStr T number (List.replicate 64 0) 64 with
  -- an overflow
  | none => .error .outOfBounds
  | some result => do
      let (ns, buf) ← result
      if ns = 0 then .ok (false, o) else addStr o length ((buf.take ns).map charOf)

/-- A name of a table. -/
def addName (table : List (List Char)) (index : Nat) (o : Out) (length : Nat) :
    Except Fault (Bool × Out) := do
  let name ← Buffer.load table index
  addStr o length name

/-- A call of `to_str_`: the size that it returns, and the buffer. -/
abbrev Printer := (buf : List Char) → (str length : Nat) → (format : List Char) →
  Except Fault (Nat × List Char)

/-- A call of `to_str_` for a part of the format. -/
def addFormat (nested : Printer) (o : Out) (length : Nat) (format : List Char) :
    Except Fault (Bool × Out) := do
  let (res, buf) ← nested o.buf o.str (length - o.size) format
  if res = 0 then .ok (false, ⟨buf, o.str, o.size⟩)
  else .ok (true, ⟨buf, o.str + res, o.size + res⟩)

/-- The branches of `to_str_` at a percent sign: whether it goes on. -/
def printSpec (nested : Printer) (t : ExtendedTime) (length : Nat) (spec : Char) (o : Out) :
    Except Fault (Bool × Out) :=
  match spec with
  | '%' => putChar o length '%'
  | 'a' => addName daysShort t.wday o length
  | 'A' => addName daysFull t.wday o length
  | 'b' | 'h' => addName monthsShort t.mon o length
  | 'B' => addName monthsFull t.mon o length
  | 'd' => addDigits 2 o length t.mday
  | 'e' =>
      addStr o length
        [if t.mday / 10 ≠ 0 then digitChar (t.mday / 10) else ' ', digitChar (t.mday % 10)]
  | 'F' => addFormat nested o length ("%Y-%m-%d".toList ++ ['\x00'])
  | 'H' => addDigits 2 o length t.hour
  | 'k' => addNum .int32 o length t.hour
  | 'm' => addDigits 2 o length (t.mon + 1)
  | 'M' => addDigits 2 o length t.min
  | 'q' => addDigits 6 o length t.usec
  | 's' => addNum .int64 o length t.toTime.tvSec
  | 'S' => addDigits 2 o length t.sec
  | 'T' => addFormat nested o length ("%H:%M:%S".toList ++ ['\x00'])
  | 'Y' => addDigits 4 o length (t.year + 1900)
  | 'z' => addStr o length ['+', '0', '0', '0', '0']
  | _ => .ok (false, o)

/-- The loop of `to_str_` over the format. -/
def printLoop (nested : Printer) (t : ExtendedTime) (length : Nat) :
    (format : List Char) → Out → Except Fault (Nat × List Char)
  | [], _ => .error .outOfBounds
  | c :: format, o =>
      if c = '\x00' then .ok (o.size, o.buf)
      else if c = '%' then
        match format with
        | [] => .error .outOfBounds
        | spec :: format => do
            let (more, o) ← printSpec nested t length spec o
            if more then printLoop nested t length format o else .ok (0, o.buf)
      else do
        let (more, o) ← putChar o length c
        if more then printLoop nested t length format o else .ok (0, o.buf)

/-- `to_str_`, with calls of itself up to a depth. -/
def toStrAt (t : ExtendedTime) : (depth : Nat) → Printer
  | 0 => fun _ _ _ _ => .error .loopBound
  | depth + 1 => fun buf str length format =>
      printLoop (toStrAt t depth) t length format ⟨buf, str, 0⟩

/-! ## Numbers -/

theorem digitLoop_eq (size number : Nat) (old behind : List Char) (hold : old.length = size) :
    digitLoop size number (old ++ behind) = .ok (fixedDigits size number ++ behind) := by
  induction size generalizing number old behind with
  | zero =>
      obtain rfl : old = [] := List.eq_nil_of_length_eq_zero hold
      rfl
  | succ size ih =>
      -- the last character is stored first
      obtain ⟨first, x, rfl⟩ : ∃ first x, old = first ++ [x] := by
        rcases List.eq_nil_or_concat old with rfl | ⟨first, x, rfl⟩
        · cases hold
        · exact ⟨first, x, by simp⟩
      obtain rfl : first.length = size := by simpa using hold
      rw [digitLoop, List.append_assoc, List.singleton_append, Buffer.store_append, Fault.ok_bind,
        ih _ _ _ rfl, fixedDigits]
      simp

theorem addDigits_eq (size : Nat) (o : Out) (length number : Nat) :
    addDigits size o length number = addStr o length (fixedDigits size number) := by
  have hdigits := digitLoop_eq size number (List.replicate size ' ') [] (by simp)
  rw [List.append_nil, List.append_nil] at hdigits
  rw [addDigits, hdigits, Fault.ok_bind]

/-- The digits of a number, as characters. -/
theorem map_charOf_decimal (n : Nat) : (Decimal.decimal n).map charOf = Nat.toDigits 10 n := by
  have hdigit : ∀ d < 10, charOf (Decimal.digitByte d) = Nat.digitChar d := by decide
  induction n using Nat.strongRecOn with
  | ind n ih =>
      rw [Nat.toDigits_eq_if (by decide)]
      split
      · rename_i hlt
        rw [Decimal.decimal_of_lt hlt, List.map_singleton, hdigit n hlt]
      · rename_i hge
        rw [Decimal.decimal_of_ge (Nat.le_of_not_lt hge), List.map_append, ih _ (by omega),
          List.map_singleton, hdigit _ (Nat.mod_lt n (by decide))]

theorem addNum_eq {T : IntegerType} {n : Nat} (hfits : T.Fits n) (hdigits : T.digits10 + 3 ≤ 64)
    (o : Out) (length : Nat) : addNum T o length n = addStr o length (Nat.toDigits 10 n) := by
  have hmax := T.max_ge
  have hbuf : 64 ≤ (List.replicate 64 (0 : UInt8)).length := by simp
  have htext : (StringManip.textOf n).map charOf = Nat.toDigits 10 n := by
    rw [StringManip.textOf_of_nonneg (Int.natCast_nonneg n), Int.toNat_natCast, map_charOf_decimal]
  have hpos := StringManip.textOf_pos n
  rw [addNum, StringManip.intToStr_eq hfits (by omega) hdigits hbuf]
  simp only [Fault.ok_bind]
  rw [if_neg (by omega), List.take_left, htext]

/-! ## What the branches write -/

/-- Behind what is `done`, with the `rest` of the buffer. -/
def Out.at (done rest : List Char) (size : Nat) : Out := ⟨done ++ rest, done.length, size⟩

/-- The output is written when there is room for it, and refused otherwise. -/
def Writes (result : Except Fault (Bool × Out)) (done rest : List Char) (size : Nat)
    (out : List Char) : Prop :=
  if out.length ≤ rest.length then
    result = .ok (true, .at (done ++ out) (rest.drop out.length) (size + out.length))
  else ∃ o, result = .ok (false, o) ∧ o.buf.length = done.length + rest.length

/-- What a call of `to_str_` leaves in the buffer and returns: the whole expansion and its
size, or 0. -/
def Prints (result : Except Fault (Nat × List Char)) (done rest : List Char) (size : Nat)
    (expansion : Option (List Char)) : Prop :=
  ∃ n buf, result = .ok (n, buf) ∧ buf.length = done.length + rest.length ∧
    (∀ out, expansion = some out → out.length ≤ rest.length →
      n = size + out.length ∧ buf = done ++ out ++ rest.drop out.length) ∧
    ((∀ out, expansion = some out → rest.length < out.length) → n = 0)

section

variable (done rest : List Char) (size : Nat)

theorem addStr_writes (src : List Char) :
    Writes (addStr (.at done rest size) (size + rest.length) src) done rest size src := by
  unfold Writes
  split
  · rename_i hroom
    rw [addStr, if_neg (by simp only [Out.at]; omega)]
    simp only [Out.at]
    rw [Buffer.storeRange_append done hroom, Fault.ok_bind, List.length_append]
  · rename_i hfull
    rw [addStr, if_pos (by simp only [Out.at]; omega)]
    exact ⟨_, rfl, List.length_append⟩

theorem putChar_writes (c : Char) :
    Writes (putChar (.at done rest size) (size + rest.length) c) done rest size [c] := by
  unfold Writes
  cases rest with
  | nil => exact ⟨_, if_pos rfl, List.length_append⟩
  | cons x rest =>
      rw [if_pos (by simp), putChar, if_neg (by simp [Out.at])]
      simp only [Out.at]
      rw [Buffer.store_append, Fault.ok_bind]
      simp

theorem addName_writes {table : List (List Char)} {index : Nat} (hindex : index < table.length) :
    Writes (addName table index (.at done rest size) (size + rest.length)) done rest size
      (table.getD index []) := by
  rw [addName, Buffer.load_eq_ok hindex, Fault.ok_bind, List.getD_eq_getElem _ _ hindex]
  exact addStr_writes done rest size _

theorem addDigits_writes (digits n : Nat) :
    Writes (addDigits digits (.at done rest size) (size + rest.length) n) done rest size
      (fixedDigits digits n) := by
  rw [addDigits_eq]
  exact addStr_writes done rest size _

theorem addNum_writes {T : IntegerType} {n : Nat} (hfits : T.Fits n)
    (hdigits : T.digits10 + 3 ≤ 64) :
    Writes (addNum T (.at done rest size) (size + rest.length) n) done rest size
      (Nat.toDigits 10 n) := by
  rw [addNum_eq hfits hdigits]
  exact addStr_writes done rest size _

/-- A part of the format is written by a call that prints something. -/
theorem addFormat_writes {nested : Printer} {format out : List Char} (hout : 0 < out.length)
    (hnested : Prints (nested (done ++ rest) done.length rest.length format) done rest 0
      (some out)) :
    Writes (addFormat nested (.at done rest size) (size + rest.length) format) done rest size
      out := by
  obtain ⟨n, buf, hcall, hlength, hfits, hfull⟩ := hnested
  have hlocal : addFormat nested (.at done rest size) (size + rest.length) format =
      if n = 0 then .ok (false, ⟨buf, done.length, size⟩)
      else .ok (true, ⟨buf, done.length + n, size + n⟩) := by
    rw [addFormat]
    simp only [Out.at]
    rw [Nat.add_sub_cancel_left, hcall, Fault.ok_bind]
  unfold Writes
  split
  · rename_i hroom
    obtain ⟨hn, hbuf⟩ := hfits out rfl hroom
    rw [hlocal, if_neg (by omega), hn, hbuf, Nat.zero_add, Out.at, List.length_append]
  · rename_i hroom
    have hzero : n = 0 := by
      apply hfull
      rintro out' hsome
      obtain rfl := Option.some.inj hsome
      omega
    exact ⟨_, by rw [hlocal, if_pos hzero], hlength⟩

end

/-- A specifier writes its output, or is refused when it is unknown. -/
def SpecPrints (nested : Printer) (t : ExtendedTime) (spec : Char) : Prop :=
  ∀ done rest size,
    (∀ out, t.specOutput spec = some out →
      Writes (printSpec nested t (size + rest.length) spec (.at done rest size)) done rest size
        out) ∧
    (t.specOutput spec = none →
      printSpec nested t (size + rest.length) spec (.at done rest size) =
        .ok (false, .at done rest size))

/-! ## The loop over the format -/

/-- What is printed behind an output that there was room for. -/
theorem Prints.of_writes {result : Except Fault (Bool × Out)}
    {continuation : Out → Except Fault (Nat × List Char)} {done rest out : List Char}
    {size : Nat} {e : Option (List Char)} (h : Writes result done rest size out)
    (hrest : out.length ≤ rest.length →
      Prints (continuation (.at (done ++ out) (rest.drop out.length) (size + out.length)))
        (done ++ out) (rest.drop out.length) (size + out.length) e) :
    Prints (do
      let (more, o) ← result
      if more then continuation o else .ok (0, o.buf)) done rest size (e.map (out ++ ·)) := by
  unfold Writes at h
  split at h
  · rename_i hroom
    obtain ⟨n, buf, hcall, hlength, hfits, hfull⟩ := hrest hroom
    rw [List.length_append, List.length_drop] at hlength
    rw [List.length_drop] at hfits hfull
    refine ⟨n, buf, ?_, by omega, ?_, ?_⟩
    · rw [h, Fault.ok_bind]
      exact hcall
    · -- there is room for both, so there is for what is behind in the rest
      rintro out' hsome hle
      obtain ⟨behind, rfl, rfl⟩ := Option.map_eq_some_iff.mp hsome
      rw [List.length_append] at hle ⊢
      obtain ⟨hn, hbuf⟩ := hfits behind rfl (by omega)
      refine ⟨by omega, ?_⟩
      rw [hbuf, List.drop_drop]
      simp
    · intro hnone
      apply hfull
      rintro behind rfl
      have hlt := hnone (out ++ behind) rfl
      rw [List.length_append] at hlt
      omega
  · -- the loop ends, and with what is behind there is no more room
    rename_i hroom
    obtain ⟨o, hcall, hlength⟩ := h
    refine ⟨0, o.buf, ?_, hlength, ?_, fun _ => rfl⟩
    · rw [hcall, Fault.ok_bind]
      rfl
    · rintro out' hsome hle
      obtain ⟨behind, rfl, rfl⟩ := Option.map_eq_some_iff.mp hsome
      rw [List.length_append] at hle
      omega

/-- An unknown specifier ends the loop. -/
theorem prints_none {result : Except Fault (Nat × List Char)} {done rest buf : List Char}
    {size : Nat} (h : result = .ok (0, buf)) (hlength : buf.length = done.length + rest.length) :
    Prints result done rest size none :=
  ⟨0, buf, h, hlength, fun _ hsome => absurd hsome.symm (Option.some_ne_none _), fun _ => rfl⟩

/-- The loop prints the expansion of a format whose specifiers print their output. -/
theorem printLoop_prints {nested : Printer} {t : ExtendedTime} {fmt : List Char}
    (hfmt : '\x00' ∉ fmt) (hnul : SpecPrints nested t '\x00')
    (hspec : ∀ spec ∈ fmt, SpecPrints nested t spec) (done rest : List Char) (size : Nat) :
    Prints (printLoop nested t (size + rest.length) (fmt ++ ['\x00']) (.at done rest size))
      done rest size (expansion t fmt) := by
  induction fmt using expansion.induct generalizing done rest size with
  | case1 =>
      refine ⟨size, done ++ rest, rfl, List.length_append, ?_, ?_⟩
      · rintro out hsome -
        obtain rfl := Option.some.inj hsome
        exact ⟨rfl, by simp⟩
      · intro hnone
        exact absurd (hnone [] rfl) (Nat.not_lt_zero _)
  | case2 =>
      -- a percent sign at the end: the terminating zero is the specifier
      refine prints_none ?_ List.length_append
      show printLoop nested t (size + rest.length) ['%', '\x00'] (.at done rest size) = _
      rw [printLoop, if_neg (by decide), if_pos rfl, (hnul done rest size).2 rfl]
      rfl
  | case3 spec fmt ih =>
      have hfmt' := List.not_mem_of_not_mem_cons (List.not_mem_of_not_mem_cons hfmt)
      obtain ⟨hknown, hunknown⟩ := hspec spec (by simp) done rest size
      have hfmt_spec : ∀ spec' ∈ fmt, SpecPrints nested t spec' := fun spec' hmem =>
        hspec spec' (List.mem_cons_of_mem _ (List.mem_cons_of_mem _ hmem))
      rw [List.cons_append, List.cons_append, printLoop, if_neg (by decide), if_pos rfl,
        expansion, if_pos rfl]
      simp only
      cases hout : t.specOutput spec with
      | none => exact prints_none (by rw [hunknown hout]; rfl) List.length_append
      | some out =>
          refine Prints.of_writes (hknown out hout) fun hroom => ?_
          have hrest := ih hfmt' hfmt_spec (done ++ out) (rest.drop out.length) (size + out.length)
          rwa [List.length_drop, show size + out.length + (rest.length - out.length) =
            size + rest.length by omega] at hrest
  | case4 c fmt hpercent ih =>
      have hc := List.ne_of_not_mem_cons hfmt
      have hfmt' := List.not_mem_of_not_mem_cons hfmt
      have hfmt_spec : ∀ spec' ∈ fmt, SpecPrints nested t spec' := fun spec' hmem =>
        hspec spec' (List.mem_cons_of_mem _ hmem)
      rw [List.cons_append, printLoop.eq_def, expansion.eq_def]
      simp only
      rw [if_neg (Ne.symm hc), if_neg hpercent, if_neg hpercent]
      refine Prints.of_writes (putChar_writes done rest size c) fun hroom => ?_
      have hrest := ih hfmt' hfmt_spec (done ++ [c]) (rest.drop 1) (size + 1)
      rw [List.length_singleton] at hroom
      rwa [List.length_drop, show size + 1 + (rest.length - 1) = size + rest.length by omega]
        at hrest

/-! ## The specifiers -/

/-- 64-bit seconds. -/
theorem gmToTime_fits {t : ExtendedTime} (ht : t.Printable) :
    IntegerType.int64.Fits t.toTime.tvSec := by
  have hdays := daysTable_le ((t.year - 70) % 4 == 2) t.mon ht.mon
  have hyear := ht.year_le
  have hmday := ht.mday
  have hhour := ht.hour
  have hmin := ht.min
  have hsec := ht.sec
  have htime : t.toTime.tvSec = gmToTime t := rfl
  rw [IntegerType.fits_int64, htime, gmToTime_parts, dayNumber]
  split at hdays <;> omega

theorem digits10_le {T : IntegerType} (hwidth : T.digits ≤ 64) : T.digits10 + 3 ≤ 64 := by
  have hlt := IntegerType.digits10_lt T hwidth
  omega

section

variable {nested : Printer} {t : ExtendedTime} {spec : Char}

/-- A specifier that is known and writes its output. -/
theorem writes_of_known {out : List Char} (hout : t.specOutput spec = some out)
    {result : Except Fault (Bool × Out)} {done rest : List Char} {size : Nat}
    (h : Writes result done rest size out) :
    (∀ out', t.specOutput spec = some out' → Writes result done rest size out') ∧
      (t.specOutput spec = none → result = .ok (false, .at done rest size)) := by
  rw [hout]
  refine ⟨?_, fun hnone => absurd hnone (Option.some_ne_none _)⟩
  rintro out' hsome
  obtain rfl := Option.some.inj hsome
  exact h

/-- `%F` and `%T` are printed by a call that prints their formats. -/
theorem specPrints_format {items : List Item} (hpos : 0 < (outputs t items).length)
    (hout : t.specOutput spec = some (outputs t items))
    (hprint : ∀ length o, printSpec nested t length spec o =
      addFormat nested o length (formatOf items ++ ['\x00']))
    (hnested : ∀ done rest, Prints (nested (done ++ rest) done.length rest.length
      (formatOf items ++ ['\x00'])) done rest 0 (some (outputs t items))) :
    SpecPrints nested t spec := by
  intro done rest size
  rw [hprint]
  exact writes_of_known hout (addFormat_writes done rest size hpos (hnested done rest))

/-- All specifiers but `%F` and `%T` are printed without a call of `to_str_`. -/
theorem specPrints_plain (ht : t.Printable) (hF : spec ≠ 'F') (hT : spec ≠ 'T') :
    SpecPrints nested t spec := by
  intro done rest size
  have hwday : t.wday < daysShort.length := ht.wday
  have hfull : t.wday < daysFull.length := ht.wday
  have hmon : t.mon < monthsShort.length := ht.mon
  have hmonFull : t.mon < monthsFull.length := ht.mon
  have hhour : IntegerType.int32.Fits t.hour := by
    have hlt := ht.hour
    rw [IntegerType.fits_int32]
    omega
  have hsec := gmToTime_fits ht
  unfold printSpec
  split
  · exact writes_of_known rfl (putChar_writes done rest size '%')
  · exact writes_of_known rfl (addName_writes done rest size hwday)
  · exact writes_of_known rfl (addName_writes done rest size hfull)
  · exact writes_of_known rfl (addName_writes done rest size hmon)
  · exact writes_of_known rfl (addName_writes done rest size hmon)
  · exact writes_of_known rfl (addName_writes done rest size hmonFull)
  · exact writes_of_known rfl (addDigits_writes done rest size 2 t.mday)
  · exact writes_of_known rfl (addStr_writes done rest size _)
  · exact absurd rfl hF
  · exact writes_of_known rfl (addDigits_writes done rest size 2 t.hour)
  · exact writes_of_known rfl (addNum_writes done rest size hhour (digits10_le (by decide)))
  · exact writes_of_known rfl (addDigits_writes done rest size 2 (t.mon + 1))
  · exact writes_of_known rfl (addDigits_writes done rest size 2 t.min)
  · exact writes_of_known rfl (addDigits_writes done rest size 6 t.usec)
  · exact writes_of_known rfl (addNum_writes done rest size hsec (digits10_le (by decide)))
  · exact writes_of_known rfl (addDigits_writes done rest size 2 t.sec)
  · exact absurd rfl hT
  · exact writes_of_known rfl (addDigits_writes done rest size 4 (t.year + 1900))
  · exact writes_of_known rfl (addStr_writes done rest size _)
  · have hunknown : t.specOutput spec = none := by
      unfold specOutput
      split <;> first | rfl | simp_all
    rw [hunknown]
    exact ⟨fun _ hsome => absurd hsome.symm (Option.some_ne_none _), fun _ => rfl⟩

end

/-! ## `to_str_` -/

/-- A call of `to_str_` for a format without `%F` and `%T`. -/
theorem toStrAt_items {t : ExtendedTime} (ht : t.Printable) {items : List Item}
    (hnul : '\x00' ∉ formatOf items) (hF : 'F' ∉ formatOf items) (hT : 'T' ∉ formatOf items)
    (depth : Nat) (done rest : List Char) :
    Prints (toStrAt t (depth + 1) (done ++ rest) done.length rest.length
      (formatOf items ++ ['\x00'])) done rest 0 (some (outputs t items)) := by
  have hspec : ∀ spec ∈ formatOf items, SpecPrints (toStrAt t depth) t spec := fun spec hmem =>
    specPrints_plain ht (ne_of_mem_of_not_mem hmem hF) (ne_of_mem_of_not_mem hmem hT)
  have hloop := printLoop_prints hnul (specPrints_plain ht (by decide) (by decide)) hspec
    done rest 0
  rwa [Nat.zero_add, expansion_formatOf] at hloop

/-- With a call of itself, `to_str_` prints every specifier. -/
theorem specPrints {t : ExtendedTime} (ht : t.Printable) (depth : Nat) (spec : Char) :
    SpecPrints (toStrAt t (depth + 1)) t spec := by
  rcases eq_or_ne spec 'F' with rfl | hF
  · exact specPrints_format (Nat.lt_of_lt_of_eq (Nat.succ_pos _) (length_dateItems t).symm)
      (specOutput_F t) (fun _ _ => rfl)
      (toStrAt_items ht (by decide) (by decide) (by decide) depth)
  rcases eq_or_ne spec 'T' with rfl | hT
  · exact specPrints_format (Nat.lt_of_lt_of_eq (Nat.succ_pos _) (length_clockItems t).symm)
      (specOutput_T t) (fun _ _ => rfl)
      (toStrAt_items ht (by decide) (by decide) (by decide) depth)
  exact specPrints_plain ht hF hT

theorem toStrAt_prints {t : ExtendedTime} (ht : t.Printable) {fmt : List Char}
    (hfmt : '\x00' ∉ fmt) (buf : List Char) (depth : Nat) :
    Prints (toStrAt t (depth + 2) buf 0 buf.length (fmt ++ ['\x00'])) [] buf 0
      (expansion t fmt) := by
  have hloop := printLoop_prints hfmt (specPrints ht depth _)
    (fun spec _ => specPrints ht depth spec) [] buf 0
  rwa [Nat.zero_add buf.length] at hloop

/-- `to_str_` stores nothing outside the buffer, and gives the size of the expansion when
there is room for it, and 0 otherwise. -/
theorem toStrAt_spec (t : ExtendedTime) (ht : t.Printable) (fmt : List Char)
    (hfmt : '\x00' ∉ fmt) (buf : List Char) (depth : Nat) :
    ∃ size buf', toStrAt t (depth + 2) buf 0 buf.length (fmt ++ ['\x00']) = .ok (size, buf') ∧
      buf'.length = buf.length ∧
      (∀ out, expansion t fmt = some out → out.length ≤ buf.length →
        size = out.length ∧ buf' = out ++ buf.drop out.length) ∧
      ((∀ out, expansion t fmt = some out → buf.length < out.length) → size = 0) := by
  obtain ⟨size, buf', hcall, hlength, hfits, hfull⟩ := toStrAt_prints ht hfmt buf depth
  rw [List.length_nil, Nat.zero_add] at hlength
  refine ⟨size, buf', hcall, hlength, ?_, hfull⟩
  intro out hsome hle
  obtain ⟨hsize, hbuf⟩ := hfits out hsome hle
  exact ⟨by omega, hbuf⟩

/-- A date and its week day, and a buffer that is a character longer. -/
theorem toStrAt_spec_date :
    ∃ size buf', toStrAt (Time.getGmTime ⟨1000000000, 0⟩) 2 (List.replicate 15 ' ') 0
        (List.replicate 15 ' ').length ("%F %a".toList ++ ['\x00']) = .ok (size, buf') ∧
      buf'.length = (List.replicate 15 ' ').length ∧
      (∀ out, expansion (Time.getGmTime ⟨1000000000, 0⟩) "%F %a".toList = some out →
        out.length ≤ (List.replicate 15 ' ').length →
          size = out.length ∧ buf' = out ++ (List.replicate 15 ' ').drop out.length) ∧
      ((∀ out, expansion (Time.getGmTime ⟨1000000000, 0⟩) "%F %a".toList = some out →
        (List.replicate 15 ' ').length < out.length) → size = 0) :=
  toStrAt_spec (Time.getGmTime ⟨1000000000, 0⟩)
    (Time.getGmTime_printable (by decide) (by decide +kernel)) "%F %a".toList (by decide)
    (List.replicate 15 ' ') 0

end ExtendedTime
end LiteMQ.Gears
