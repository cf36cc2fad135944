import Mathlib.Data.Nat.Notation

/-!
# Handler return values and the flags of a holder

`DescriptorHandler::read()` and `write()` return an `unsigned long` of
`StateChange` bits, and `DescriptorHandlerPoller::apply_state_modify_` turns
them into the flags of the `DescriptorHandlerHolder`.
-/

namespace LiteMQ

namespace DescriptorHandler

/-! ## `DescriptorHandler::StateChange` -/

def continueHandle : UInt64 := 0
def stopReadHandle : UInt64 := 1
def startReadHandle : UInt64 := 2
def closeReadHandle : UInt64 := 4
def stopWriteHandle : UInt64 := 8
def startWriteHandle : UInt64 := 16
def closeWriteHandle : UInt64 := 32
def stopProcessing : UInt64 := 64

end DescriptorHandler

open DescriptorHandler

/-- `state_modify & bit` as a condition. -/
def hasBit (stateModify bit : UInt64) : Bool := stateModify &&& bit != 0

/-- The flags of a `DescriptorHandlerHolder` that `apply_state_modify_` reads
and writes. -/
structure HandleFlags where
  handleRead : Bool
  handleWrite : Bool
  readClosed : Bool
  writeClosed : Bool
  deriving DecidableEq, Repr

/-- The flags set by the constructor of `DescriptorHandlerHolder`. -/
def HandleFlags.initial : HandleFlags := ⟨true, true, false, false⟩

/-- `DescriptorHandlerPoller::apply_state_modify_`: the new flags, and whether
the processing loop must stop. -/
def applyStateModify (flags : HandleFlags) (stateModify : UInt64) : HandleFlags × Bool :=
  let (resHandleRead, readClosed) :=
    if hasBit stateModify closeReadHandle then (false, true)
    else if hasBit stateModify startReadHandle then (true, flags.readClosed)
    else if hasBit stateModify stopReadHandle then (false, flags.readClosed)
    else (flags.handleRead, flags.readClosed)
  let (resHandleRead, resHandleWrite, writeClosed) :=
    -- the source clears `res_handle_read`, not `res_handle_write`, on this branch
    if hasBit stateModify closeWriteHandle then (false, flags.handleWrite, true)
    else if hasBit stateModify startWriteHandle then (resHandleRead, true, flags.writeClosed)
    else if hasBit stateModify stopWriteHandle then (resHandleRead, false, flags.writeClosed)
    else (resHandleRead, flags.handleWrite, flags.writeClosed)
  (⟨resHandleRead, resHandleWrite, readClosed, writeClosed⟩, hasBit stateModify stopProcessing)

section Fields

variable (flags : HandleFlags) (stateModify : UInt64)

/-- The new flags, one by one. -/
theorem applyStateModify_fst : (applyStateModify flags stateModify).1 =
    { handleRead :=
        if hasBit stateModify closeWriteHandle then false
        else if hasBit stateModify closeReadHandle then false
        else if hasBit stateModify startReadHandle then true
        else if hasBit stateModify stopReadHandle then false
        else flags.handleRead
      handleWrite :=
        if hasBit stateModify closeWriteHandle then flags.handleWrite
        else if hasBit stateModify startWriteHandle then true
        else if hasBit stateModify stopWriteHandle then false
        else flags.handleWrite
      readClosed := flags.readClosed || hasBit stateModify closeReadHandle
      writeClosed := flags.writeClosed || hasBit stateModify closeWriteHandle } := by
  unfold applyStateModify
  cases hasBit stateModify closeReadHandle <;> cases hasBit stateModify startReadHandle <;>
    cases hasBit stateModify stopReadHandle <;> cases hasBit stateModify closeWriteHandle <;>
    cases hasBit stateModify startWriteHandle <;> cases hasBit stateModify stopWriteHandle <;>
    simp

/-- The read side is closed by its bit and stays closed. -/
theorem applyStateModify_readClosed : (applyStateModify flags stateModify).1.readClosed =
    (flags.readClosed || hasBit stateModify closeReadHandle) := by
  rw [applyStateModify_fst]

/-- The write side is closed by its bit and stays closed. -/
theorem applyStateModify_writeClosed : (applyStateModify flags stateModify).1.writeClosed =
    (flags.writeClosed || hasBit stateModify closeWriteHandle) := by
  rw [applyStateModify_fst]

/-- `handle_read` follows the bits of the read side, and closing the write side
clears it. -/
theorem applyStateModify_handleRead : (applyStateModify flags stateModify).1.handleRead =
    if hasBit stateModify closeWriteHandle then false
    else if hasBit stateModify closeReadHandle then false
    else if hasBit stateModify startReadHandle then true
    else if hasBit stateModify stopReadHandle then false
    else flags.handleRead := by
  rw [applyStateModify_fst]

/-- `handle_write` follows the start and stop bits of the write side, unless the
side is closed. -/
theorem applyStateModify_handleWrite : (applyStateModify flags stateModify).1.handleWrite =
    if hasBit stateModify closeWriteHandle then flags.handleWrite
    else if hasBit stateModify startWriteHandle then true
    else if hasBit stateModify stopWriteHandle then false
    else flags.handleWrite := by
  rw [applyStateModify_fst]

end Fields

end LiteMQ
