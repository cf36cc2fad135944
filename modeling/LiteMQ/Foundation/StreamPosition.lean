import Mathlib.Data.List.Basic

/-!
# Positions in a stream

The types that the seeks of a stream buffer take, and the place that a seek names: an
offset from the beginning, from the current position or from the end.
-/

/-- `std::ios_base::openmode`, as far as a seek tells the modes apart: the input alone, the
output alone, or any other combination. -/
inductive Openmode
  | input
  | output
  | other
  deriving DecidableEq, Repr

/-- `std::ios_base::seekdir`, with the values that are none of its three. -/
inductive Seekdir
  | beg
  | cur
  | fromEnd
  | other
  deriving DecidableEq, Repr

namespace Seekdir

/-- What the offset counts from, in `size` elements with the cursor at `position`. -/
def base (size position : Nat) : Seekdir → Option Int
  | .beg => some 0
  | .cur => some position
  | .fromEnd => some size
  | .other => none

/-- The place that a seek names. -/
def target (size position : Nat) (off : Int) (way : Seekdir) : Option Int :=
  (way.base size position).map (· + off)

end Seekdir
