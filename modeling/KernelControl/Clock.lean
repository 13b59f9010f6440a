import KernelControl.Call.Number
import KernelControl.Clock.Id
import KernelControl.ClockAdjustment.Memory
import KernelControl.Program
import KernelControl.Time.Arithmetic

/-!
# Reading, setting and waiting for clocks

Each operation makes one system call. A time that is asked for is read from a structure that starts zeroed and that the
kernel fills, so a kernel that writes less leaves zeros. An adjustment that fails leaves the caller's record as it was,
whatever the kernel wrote; one that the record does not fit fails before the call.
-/

namespace KernelControl

/-- Why a sleep did not run to its end. -/
structure SleepError where
  code : ErrorCode
  /-- What was left of the interval, if a signal interrupted the sleep; zero otherwise. -/
  remaining : TimeSpec
deriving DecidableEq, Repr

/-- Why a clock that has to be readable gave no time. -/
inductive ClockFault where
  /-- The kernel refused to read the clock. -/
  | unreadable
deriving DecidableEq, Repr

namespace ClockFault

/-- The wording of the fault. -/
def message : ClockFault → String
  | .unreadable => "sysxx: assertion failed: ts.has_value()"

end ClockFault

namespace ClockId

/-- The clock's number as an operand. -/
def operand (clock : ClockId) : Operand := .int32 clock.raw

/-- The time of the clock. -/
def getTime (clock : ClockId) : Program (Except ErrorCode TimeSpec) := do
  let reply ← .perform CallNumber.clockGettime [clock.operand, .image (Image.zero 16)]
  return reply.outcome.map fun _ => Image.read TimeSpec ((Image.zero 16).fill reply.written)

/-- Sets the clock. -/
def setTime (clock : ClockId) (ts : TimeSpec) : Program (Except ErrorCode Unit) := do
  let reply ← .perform CallNumber.clockSettime [clock.operand, .image (Image.of ts)]
  return reply.completion

/-- What an adjustment comes to that handed the kernel an image and got a reply: the state and the record that the kernel
reported, or the failure and the record as it was. -/
def adjusted (adj : ClockAdjustment) (image : Image 208) (reply : Reply) : Except ErrorCode ClockState × ClockAdjustment :=
  match reply.number32 with
  | .error code => (.error code, adj)
  | .ok state => (.ok ⟨state⟩, Image.read ClockAdjustment (image.fill reply.written))

/-- Applies the fields of the record that its modes select. On success the record holds what the kernel reported. -/
def adjustTime (clock : ClockId) (adj : ClockAdjustment) : Program (Except ErrorCode ClockState × ClockAdjustment) :=
  match adj.image? with
  | .error code => return (.error code, adj)
  | .ok image => do
    let reply ← .perform CallNumber.clockAdjtime [clock.operand, .image image]
    return adjusted adj image reply

/-! ## Sleeping -/

/-- The flags of a sleep for an interval. -/
def relativeFlags : Int32 := 0

/-- The flags of a sleep until a point in time. -/
def absoluteFlags : Int32 := 1

/-- A sleep that does not report what is left of it. -/
def sleep (clock : ClockId) (flags : Int32) (ts : TimeSpec) : Program (Except ErrorCode Unit) := do
  let reply ← .perform CallNumber.clockNanosleep [clock.operand, .int32 flags, .image (Image.of ts), .null]
  return reply.completion

/-- Sleeps for an interval measured on the clock. -/
def sleepFor (clock : ClockId) (ts : TimeSpec) : Program (Except ErrorCode Unit) := clock.sleep relativeFlags ts

/-- Sleeps until the clock reaches a time. -/
def sleepUntil (clock : ClockId) (ts : TimeSpec) : Program (Except ErrorCode Unit) := clock.sleep absoluteFlags ts

/-- Sleeps for an interval and reports what was left of it if a signal interrupted the sleep. -/
def sleepForWithRemaining (clock : ClockId) (ts : TimeSpec) : Program (Except SleepError Unit) := do
  let reply ← .perform CallNumber.clockNanosleep
    [clock.operand, .int32 relativeFlags, .image (Image.of ts), .image (Image.zero 16)]
  return reply.completion.mapError fun code =>
    ⟨code, if code.isInterrupted then Image.read TimeSpec ((Image.zero 16).fill reply.written) else TimeSpec.zero⟩

/-! ## The current instant -/

/-- The nanoseconds since the clock's epoch. The clock has to be readable: with `assertions` a failed read is a fault, and
without them it counts as the epoch. -/
def now (clock : ClockId) (assertions : Bool) : Program (Except ClockFault Duration) := do
  match ← clock.getTime with
  | .ok ts => return .ok ⟨ts.uncheckedNanoseconds⟩
  | .error _ => return if assertions then .error .unreadable else .ok ⟨0⟩

/-! ## What the operations do -/

/-- A reading makes one call, with a zeroed structure, and its value is what the reply leaves there. -/
theorem run_getTime (clock : ClockId) (replies : List Reply) :
    clock.getTime.run replies =
      ((replies.headD {}).outcome.map fun _ =>
          Image.read TimeSpec ((Image.zero 16).fill (replies.headD {}).written),
        [⟨CallNumber.clockGettime, [clock.operand, .image (Image.zero 16)]⟩]) := rfl

/-- A setting makes one call, with the image of the time. -/
theorem run_setTime (clock : ClockId) (ts : TimeSpec) (replies : List Reply) :
    (clock.setTime ts).run replies =
      ((replies.headD {}).completion, [⟨CallNumber.clockSettime, [clock.operand, .image (Image.of ts)]⟩]) := rfl

/-- A record that does not fit is refused before the kernel is asked. -/
theorem run_adjustTime_of_not_fits (clock : ClockId) {adj : ClockAdjustment} (h : ¬Image.Fits adj)
    (replies : List Reply) : (clock.adjustTime adj).run replies = ((.error .valueTooLarge, adj), []) := by
  rw [adjustTime, ClockAdjustment.image?_of_not_fits h]
  rfl

/-- A record that fits is handed to the kernel as its image. -/
theorem run_adjustTime_of_fits (clock : ClockId) {adj : ClockAdjustment} (h : Image.Fits adj) (replies : List Reply) :
    (clock.adjustTime adj).run replies =
      (adjusted adj (Image.of adj) (replies.headD {}),
        [⟨CallNumber.clockAdjtime, [clock.operand, .image (Image.of adj)]⟩]) := by
  rw [adjustTime, ClockAdjustment.image?_of_fits h]
  rfl

/-- A sleep hands the kernel its request and no place for what remains. -/
theorem run_sleep (clock : ClockId) (flags : Int32) (ts : TimeSpec) (replies : List Reply) :
    (clock.sleep flags ts).run replies =
      ((replies.headD {}).completion,
        [⟨CallNumber.clockNanosleep, [clock.operand, .int32 flags, .image (Image.of ts), .null]⟩]) := rfl

/-- A sleep that reports what remains makes the same call as one that does not, with a zeroed structure for it. -/
theorem run_sleepForWithRemaining (clock : ClockId) (ts : TimeSpec) (replies : List Reply) :
    (clock.sleepForWithRemaining ts).run replies =
      ((replies.headD {}).completion.mapError fun code =>
          ⟨code, if code.isInterrupted then
              Image.read TimeSpec ((Image.zero 16).fill (replies.headD {}).written)
            else TimeSpec.zero⟩,
        [⟨CallNumber.clockNanosleep,
          [clock.operand, .int32 relativeFlags, .image (Image.of ts), .image (Image.zero 16)]⟩]) := rfl

/-- The current instant makes the call of a reading. -/
theorem run_now (clock : ClockId) (assertions : Bool) (replies : List Reply) :
    (clock.now assertions).run replies =
      (match (clock.getTime.run replies).1 with
        | .ok ts => .ok ⟨ts.uncheckedNanoseconds⟩
        | .error _ => if assertions then .error .unreadable else .ok ⟨0⟩,
        (clock.getTime.run replies).2) := by
  rw [now, Program.run_bind]
  cases h : (clock.getTime.run replies).1 <;> simp [h]

end ClockId

end KernelControl
