import KernelControl.Call.Number
import KernelControl.CpuSet.Memory
import KernelControl.Program
import KernelControl.SchedAttr

/-!
# Affinity, attributes and priorities of threads

Each operation makes one system call. A thread is named by its number. A mask that is read is filled in place: the
kernel says how many bytes it wrote, and on success the rest of the mask is cleared. Attributes are read over a default
record, and they are set with the true size of the record, whatever the record says.
-/

namespace KernelControl

/-- A thread, by its number. -/
structure ThreadId where
  raw : Int32
deriving DecidableEq, Repr

namespace ThreadId

/-- The calling thread. -/
def self : ThreadId := ⟨0⟩

/-- The thread's number as an operand. -/
def operand (thread : ThreadId) : Operand := .int32 thread.raw

/-! ## Affinity -/

/-- The mask after a read over `mask` that the kernel answered: what it wrote, and on success nothing past the bytes that
it reports. -/
def maskAfter (mask : CpuSet) (reply : Reply) : CpuSet :=
  let filled := (Image.of mask).fill reply.written
  match reply.outcome with
  | .error _ => Image.read CpuSet filled
  | .ok count => Image.read CpuSet (filled.keepFirst count.toNat)

/-- Reads the affinity of the thread over a mask. Gives the number of bytes that the kernel reports, and the mask
afterwards; when the call fails, the mask keeps what the kernel wrote before it failed. -/
def getAffinity (thread : ThreadId) (mask : CpuSet) : Program (Except ErrorCode UInt64 × CpuSet) := do
  let reply ← .perform CallNumber.schedGetaffinity [thread.operand, .size 128, .image (Image.of mask)]
  return (reply.outcome, maskAfter mask reply)

/-- Restricts the thread to the processors of a mask. -/
def setAffinity (thread : ThreadId) (mask : CpuSet) : Program (Except ErrorCode Unit) := do
  let reply ← .perform CallNumber.schedSetaffinity [thread.operand, .size 128, .image (Image.of mask)]
  return reply.completion

/-! ## Attributes -/

/-- Sets the attributes of the thread. -/
def setAttr (thread : ThreadId) (attr : SchedAttr) (flags : UInt32) : Program (Except ErrorCode Unit) := do
  let reply ← .perform CallNumber.schedSetattr
    [thread.operand, .image (Image.of { attr with size := 56 }), .uint32 flags]
  return reply.completion

/-- Reads the attributes of the thread. -/
def getAttr (thread : ThreadId) (flags : UInt32) : Program (Except ErrorCode SchedAttr) := do
  let initial : Image 56 := Image.of ({} : SchedAttr)
  let reply ← .perform CallNumber.schedGetattr [thread.operand, .image initial, .uint32 56, .uint32 flags]
  return reply.outcome.map fun _ => Image.read SchedAttr (initial.fill reply.written)

/-- Lets other threads run in place of the calling one. -/
def yield : Program (Except ErrorCode Unit) := do
  let reply ← .perform CallNumber.schedYield []
  return reply.completion

/-! ## What the operations do -/

/-- Reading an affinity makes one call, with the image of the mask that is read over. -/
theorem run_getAffinity (thread : ThreadId) (mask : CpuSet) (replies : List Reply) :
    (thread.getAffinity mask).run replies =
      (((replies.headD {}).outcome, maskAfter mask (replies.headD {})),
        [⟨CallNumber.schedGetaffinity, [thread.operand, .size 128, .image (Image.of mask)]⟩]) := rfl

/-- Setting an affinity makes one call, with the image of the mask. -/
theorem run_setAffinity (thread : ThreadId) (mask : CpuSet) (replies : List Reply) :
    (thread.setAffinity mask).run replies =
      ((replies.headD {}).completion,
        [⟨CallNumber.schedSetaffinity, [thread.operand, .size 128, .image (Image.of mask)]⟩]) := rfl

/-- Setting attributes makes one call, with the image of the record and its true size. -/
theorem run_setAttr (thread : ThreadId) (attr : SchedAttr) (flags : UInt32) (replies : List Reply) :
    (thread.setAttr attr flags).run replies =
      ((replies.headD {}).completion,
        [⟨CallNumber.schedSetattr,
          [thread.operand, .image (Image.of { attr with size := 56 }), .uint32 flags]⟩]) := rfl

/-- Reading attributes makes one call, with the image of a default record. -/
theorem run_getAttr (thread : ThreadId) (flags : UInt32) (replies : List Reply) :
    (thread.getAttr flags).run replies =
      ((replies.headD {}).outcome.map fun _ =>
          Image.read SchedAttr ((Image.of ({} : SchedAttr)).fill (replies.headD {}).written),
        [⟨CallNumber.schedGetattr,
          [thread.operand, .image (Image.of ({} : SchedAttr)), .uint32 56, .uint32 flags]⟩]) := rfl

/-- Yielding makes one call without operands. -/
theorem run_yield (replies : List Reply) :
    yield.run replies = ((replies.headD {}).completion, [⟨CallNumber.schedYield, []⟩]) := rfl

end ThreadId

namespace SchedPolicy

/-- The least priority under the policy. -/
def priorityMin (policy : SchedPolicy) : Program (Except ErrorCode Int32) := do
  let reply ← .perform CallNumber.schedGetPriorityMin [.uint32 policy.raw]
  return reply.number32

/-- The greatest priority under the policy. -/
def priorityMax (policy : SchedPolicy) : Program (Except ErrorCode Int32) := do
  let reply ← .perform CallNumber.schedGetPriorityMax [.uint32 policy.raw]
  return reply.number32

/-- Asking for the least priority makes one call. -/
theorem run_priorityMin (policy : SchedPolicy) (replies : List Reply) :
    policy.priorityMin.run replies =
      ((replies.headD {}).number32, [⟨CallNumber.schedGetPriorityMin, [.uint32 policy.raw]⟩]) := rfl

/-- Asking for the greatest priority makes one call. -/
theorem run_priorityMax (policy : SchedPolicy) (replies : List Reply) :
    policy.priorityMax.run replies =
      ((replies.headD {}).number32, [⟨CallNumber.schedGetPriorityMax, [.uint32 policy.raw]⟩]) := rfl

end SchedPolicy

end KernelControl
