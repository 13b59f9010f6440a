import KernelControl.Call.Number
import KernelControl.FlagSet
import KernelControl.Program

/-!
# Locking memory

Pages can be kept in memory: those of a range, those of a whole buffer, or all pages of the process. A range is passed
to the kernel as it is, an empty one too.
-/

namespace KernelControl

/-- How a range is locked. -/
abbrev RangeLockFlags : Type := FlagSet UInt32

namespace RangeLockFlags

/-- The whole range is brought into memory and locked at once. -/
def default : RangeLockFlags := .empty

/-- Pages are locked when they are first touched. -/
def onFault : UInt32 := 1

end RangeLockFlags

/-- Which pages of the process are locked, and how. -/
abbrev ProcessLockFlags : Type := FlagSet Int32

namespace ProcessLockFlags

/-- The pages that are mapped now. -/
def current : Int32 := 1
/-- The pages that will be mapped. -/
def future : Int32 := 2
/-- Pages are locked when they are first touched. -/
def onFault : Int32 := 4

end ProcessLockFlags

/-- Where a range begins. -/
inductive RangeStart where
  /-- At an address. -/
  | address (a : UInt64)
  /-- At a position inside a buffer of the caller. -/
  | buffer (offset : UInt64)
deriving DecidableEq, Repr

/-- A range of memory. -/
structure MemoryRange where
  start : RangeStart
  /-- The length in bytes. -/
  length : UInt64
deriving DecidableEq, Repr

namespace MemoryRange

/-- The range as operands: where it begins, and its length. -/
def operands (range : MemoryRange) : List Operand :=
  match range.start with
  | .address a => [.argument (.address a), .size range.length]
  | .buffer offset => [.buffer offset, .size range.length]

/-- Locks the pages of the range. -/
def lock (range : MemoryRange) : Program (Except ErrorCode Unit) := do
  let reply ← .perform CallNumber.mlock range.operands
  return reply.completion

/-- Locks the pages of the range in the way the flags say. -/
def lockWith (range : MemoryRange) (flags : RangeLockFlags) : Program (Except ErrorCode Unit) := do
  let reply ← .perform CallNumber.mlock2 (range.operands ++ [.uint32 flags.raw])
  return reply.completion

/-- Unlocks the pages of the range. -/
def unlock (range : MemoryRange) : Program (Except ErrorCode Unit) := do
  let reply ← .perform CallNumber.munlock range.operands
  return reply.completion

/-- Locking a range makes one call, with where it begins and its length. -/
theorem run_lock (range : MemoryRange) (replies : List Reply) :
    range.lock.run replies = ((replies.headD {}).completion, [⟨CallNumber.mlock, range.operands⟩]) := rfl

/-- Locking a range with flags makes one call that ends with the flags. -/
theorem run_lockWith (range : MemoryRange) (flags : RangeLockFlags) (replies : List Reply) :
    (range.lockWith flags).run replies =
      ((replies.headD {}).completion, [⟨CallNumber.mlock2, range.operands ++ [.uint32 flags.raw]⟩]) := rfl

/-- Unlocking a range makes one call, with where it begins and its length. -/
theorem run_unlock (range : MemoryRange) (replies : List Reply) :
    range.unlock.run replies = ((replies.headD {}).completion, [⟨CallNumber.munlock, range.operands⟩]) := rfl

end MemoryRange

namespace ProcessMemory

/-- Locks pages of the process. -/
def lockAll (flags : ProcessLockFlags) : Program (Except ErrorCode Unit) := do
  let reply ← .perform CallNumber.mlockall [.int32 flags.raw]
  return reply.completion

/-- Unlocks every page of the process. -/
def unlockAll : Program (Except ErrorCode Unit) := do
  let reply ← .perform CallNumber.munlockall []
  return reply.completion

/-- Locking the process makes one call, with the flags. -/
theorem run_lockAll (flags : ProcessLockFlags) (replies : List Reply) :
    (lockAll flags).run replies = ((replies.headD {}).completion, [⟨CallNumber.mlockall, [.int32 flags.raw]⟩]) := rfl

/-- Unlocking the process makes one call without operands. -/
theorem run_unlockAll (replies : List Reply) :
    unlockAll.run replies = ((replies.headD {}).completion, [⟨CallNumber.munlockall, []⟩]) := rfl

end ProcessMemory

end KernelControl
