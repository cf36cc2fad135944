import LiteMQ.Foundation.Lines
import LiteMQ.Gears.CompositeLoops
import LiteMQ.Gears.ErrorText

/-!
# What a composite throws

The loops of `CompositeActiveObject` over its children write every exception to a stream and
throw one at their end, when the stream shows anything.  Whether it does is all that they ask,
so an exception must not get lost because its text is empty, or because the texts before it
have filled the stream.

It does not: a loop throws if and only if a child has thrown, and its exception has the texts
of all of them in their order, as far as there is room (`deactivateAndWait_error`).
-/

namespace LiteMQ.Gears

open Simple (ascii)

/-! ## The source -/

/-- `all_errors << ex.what() << std::endl;` for every exception of a loop. -/
def allErrors : List Report → Pieces
  | [] => .nil
  | ex :: caught => .what ex (.text [10] (allErrors caught))

/-- What follows the loops: an exception when something was written to `all_errors`. -/
def throwErrors (all frame : Frame) (fn message : List UInt8) (caught : List Report) :
    Outcome (Option Report) := do
  let allErrorsStr ← (allErrors caught).shown all
  pure (if allErrorsStr.length ≠ 0 then
      some (.composed frame (.text fn (.text message (.str all (allErrors caught) .nil))))
    else none)

/-- `CompositeActiveObjectBase::deactivate_object_` behind its loop. -/
def deactivateError (all frame : Frame) (caught : List Report) : Outcome (Option Report) :=
  throwErrors all frame (ascii "CompositeActiveObjectBase::deactivate_object_()")
    (ascii ": Can't deactivate child active object. Caught Gears::Exception:\n") caught

/-- `CompositeActiveObjectBase::wait_for_some_objects_` behind its loop, where `FUN` is the name
of another function. -/
def waitForSomeObjectsError (all frame : Frame) (caught : List Report) :
    Outcome (Option Report) :=
  throwErrors all frame (ascii "CompositeActiveObjectBase::activate_object_()")
    (ascii ": Can't wait child active object. Caught Gears::Exception:\n") caught

/-- A child, and the exceptions of the calls of it that throw: of `deactivate_object` or the
wait that follows it directly, and of the other `wait_object`. -/
structure ThrowingChild (C : Type*) where
  child : Called C
  deactivation : Report
  wait : Report

/-- The variables of the two functions that may throw. -/
structure StopFrames where
  deactivateErrors : Frame
  deactivate : Frame
  waitErrors : Frame
  wait : Frame

variable {C : Type*}

/-- What the deactivation of the children throws, or what the waits for them do. -/
def stopError (frames : StopFrames) (sync : Bool) (children : List (ThrowingChild C)) :
    Outcome (Option Report) := do
  let thrown ← deactivateError frames.deactivateErrors frames.deactivate
    ((children.filter fun c => c.child.throws sync).map ThrowingChild.deactivation)
  match thrown with
  | some ex => pure (some ex)
  | none =>
      waitForSomeObjectsError frames.waitErrors frames.wait
        ((children.filter fun c => c.child.fails.wait).map ThrowingChild.wait)

/-! ## The texts -/

/-- Every text on a line of its own. -/
def lines (caught : List Report) : List UInt8 := Lines.terminated 10 (caught.map Report.fullText)

theorem allErrors_fullText (caught : List Report) : (allErrors caught).fullText = lines caught := by
  induction caught with
  | nil => rfl
  | cons ex caught ih =>
      simp only [allErrors, Pieces.fullText, ih, lines, List.map_cons, Lines.terminated_cons]
      simp

theorem lines_noNul (caught : List Report) : 0 ∉ lines caught := by
  induction caught with
  | nil => simp [lines]
  | cons ex caught ih =>
      rw [lines, List.map_cons, Lines.terminated_cons]
      simp only [List.mem_append, List.mem_cons, not_or]
      exact ⟨ex.fullText_noNul, by decide, ih⟩

theorem lines_eq_nil_iff (caught : List Report) : lines caught = [] ↔ caught = [] := by
  cases caught with
  | nil => simp [lines]
  | cons ex caught => simp [lines]

/-- A loop throws as soon as something was caught. -/
theorem throwErrors_spec (all frame : Frame) {fn message : List UInt8} (hfn : 0 ∉ fn)
    (hmessage : 0 ∉ message) (caught : List Report) :
    ∃ thrown, throwErrors all frame fn message caught = pure thrown ∧
      (thrown = none ↔ caught = []) ∧
      ∀ ex ∈ thrown, ex.fullText = fn ++ message ++ lines caught := by
  obtain ⟨shown, hshown, hlength⟩ := (allErrors caught).shown_length all
  rw [allErrors_fullText, Ne, Ne, lines_eq_nil_iff] at hlength
  refine ⟨_, by rw [throwErrors, hshown, pure_bind], ?_, ?_⟩
  · split
    · rename_i hsome
      exact iff_of_false (Option.some_ne_none _) (hlength.mp hsome)
    · rename_i hnone
      exact iff_of_true rfl (not_not.mp (mt hlength.mpr hnone))
  · intro ex hex
    have hnone : 0 ∉ fn ++ (message ++ lines caught) := by
      simp [hfn, hmessage, lines_noNul]
    split at hex
    · obtain rfl := Option.some.inj hex
      simp only [Report.fullText, Pieces.fullText, allErrors_fullText, List.append_nil]
      rw [cut_of_noNul hnone, List.append_assoc]
    · cases hex

/-- The text that stopping the children ends with. -/
def stopText (sync : Bool) (children : List (ThrowingChild C)) : List UInt8 :=
  if children.any fun c => c.child.throws sync then
    ascii "CompositeActiveObjectBase::deactivate_object_()" ++
      ascii ": Can't deactivate child active object. Caught Gears::Exception:\n" ++
      lines ((children.filter fun c => c.child.throws sync).map ThrowingChild.deactivation)
  else
    ascii "CompositeActiveObjectBase::activate_object_()" ++
      ascii ": Can't wait child active object. Caught Gears::Exception:\n" ++
      lines ((children.filter fun c => c.child.fails.wait).map ThrowingChild.wait)

theorem stopError_spec (frames : StopFrames) (sync : Bool) (children : List (ThrowingChild C)) :
    ∃ thrown, stopError frames sync children = pure thrown ∧
      (thrown.isSome = (children.any (fun c => c.child.throws sync) ||
        children.any fun c => c.child.fails.wait)) ∧
      ∀ ex ∈ thrown, ex.fullText = stopText sync children := by
  have hfilter (p : ThrowingChild C → Bool) (text : ThrowingChild C → Report) :
      (children.filter p).map text = [] ↔ children.any p = false := by
    rw [List.map_eq_nil_iff, List.filter_eq_nil_iff, List.any_eq_false]
  obtain ⟨thrown, hdeactivate, hnone, htext⟩ := throwErrors_spec frames.deactivateErrors
    frames.deactivate
    (show 0 ∉ ascii "CompositeActiveObjectBase::deactivate_object_()" by decide)
    (show 0 ∉ ascii ": Can't deactivate child active object. Caught Gears::Exception:\n" by decide)
    ((children.filter fun c => c.child.throws sync).map ThrowingChild.deactivation)
  rw [hfilter] at hnone
  rw [stopError, deactivateError, hdeactivate, pure_bind]
  cases thrown with
  | some ex =>
      have hthrows : children.any (fun c => c.child.throws sync) = true := by
        simpa using hnone
      refine ⟨some ex, rfl, by rw [hthrows]; rfl, ?_⟩
      rw [stopText, if_pos hthrows]
      exact htext
  | none =>
      have hthrows : children.any (fun c => c.child.throws sync) = false := hnone.mp rfl
      obtain ⟨thrown, hwait, hnone, htext⟩ := throwErrors_spec frames.waitErrors frames.wait
        (show 0 ∉ ascii "CompositeActiveObjectBase::activate_object_()" by decide)
        (show 0 ∉ ascii ": Can't wait child active object. Caught Gears::Exception:\n" by decide)
        ((children.filter fun c => c.child.fails.wait).map ThrowingChild.wait)
      rw [hfilter] at hnone
      refine ⟨thrown, hwait, ?_, ?_⟩
      · rw [hthrows, Bool.false_or]
        cases thrown with
        | none => exact (hnone.mp rfl).symm
        | some ex => simpa using hnone
      · rw [stopText, hthrows, if_neg Bool.false_ne_true]
        exact htext

/-- **Nothing that a child throws gets lost.**  The composite deactivates children and waits for
them: it throws if and only if the collected text is not empty, and that is if and only if a
child has thrown.  Its exception shows all of their texts in order, as far as there is room. -/
theorem deactivateAndWait_error [DecidableEq C] (frames : StopFrames) (sync : Bool)
    (children : List (ThrowingChild C)) (w : World C) :
    ∃ v threw thrown,
      deactivateAndWait sync (children.map ThrowingChild.child) w = some (v, threw) ∧
      stopError frames sync children = pure thrown ∧ (threw = true ↔ thrown.isSome) ∧
      ∀ ex ∈ thrown, ∃ what, ex.what = pure what ∧
        what.text = (stopText sync children).take (descBufferSize - 1) := by
  obtain ⟨v, hcalls, -⟩ := deactivateAndWait_spec sync (children.map ThrowingChild.child) w
  obtain ⟨thrown, hthrown, hsome, htext⟩ := stopError_spec frames sync children
  refine ⟨v, _, thrown, hcalls, hthrown, ?_, fun ex hex => ?_⟩
  · rw [List.any_map, List.any_map, hsome]
    rfl
  · rw [← htext ex hex]
    exact ex.what_spec

end LiteMQ.Gears
