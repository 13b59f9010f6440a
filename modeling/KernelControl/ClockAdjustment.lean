import KernelControl.FlagSet
import KernelControl.Time.Memory

/-!
# The clock adjustment record

The parameters of the kernel's clock discipline. `modes` selects the fields that the kernel is to apply; after a
successful adjustment every field holds the value that the kernel reported. The record is wider than the kernel's
structure in one place: `shift` is a 64-bit word here and a 32-bit one there.
-/

namespace KernelControl

/-- The fields of an adjustment that are to be applied; none for a mere reading. -/
abbrev AdjustMode : Type := FlagSet UInt32

namespace AdjustMode

/-- Time offset. -/
def offset : UInt32 := 0x0001
/-- Frequency offset. -/
def frequency : UInt32 := 0x0002
/-- Maximum time error. -/
def maxError : UInt32 := 0x0004
/-- Estimated time error. -/
def estError : UInt32 := 0x0008
/-- Clock status. -/
def status : UInt32 := 0x0010
/-- Time constant of the phase-locked loop. -/
def timeConstant : UInt32 := 0x0020
/-- Offset of atomic time. -/
def tai : UInt32 := 0x0080
/-- Add `time` to the current time. -/
def setOffset : UInt32 := 0x0100
/-- Select microsecond resolution. -/
def micro : UInt32 := 0x1000
/-- Select nanosecond resolution. -/
def nano : UInt32 := 0x2000
/-- Tick value. -/
def tick : UInt32 := 0x4000
/-- A single gradual adjustment. -/
def offsetSingleshot : UInt32 := 0x8001
/-- Read what is left of a single gradual adjustment. -/
def offsetSingleshotRead : UInt32 := 0xa001

end AdjustMode

/-- The state of the clock discipline. -/
abbrev ClockStatus : Type := FlagSet Int32

namespace ClockStatus

/-- Updates by the phase-locked loop are enabled. -/
def pll : Int32 := 0x0001
/-- The pulse per second disciplines the frequency. -/
def ppsFrequency : Int32 := 0x0002
/-- The pulse per second disciplines the time. -/
def ppsTime : Int32 := 0x0004
/-- The frequency-locked mode is selected. -/
def fll : Int32 := 0x0008
/-- A leap second is to be inserted. -/
def insertLeap : Int32 := 0x0010
/-- A leap second is to be deleted. -/
def deleteLeap : Int32 := 0x0020
/-- The clock is not synchronized. -/
def unsync : Int32 := 0x0040
/-- The frequency is held. -/
def frequencyHold : Int32 := 0x0080
/-- A pulse per second is present. -/
def ppsSignal : Int32 := 0x0100
/-- The jitter of the pulse is exceeded. -/
def ppsJitter : Int32 := 0x0200
/-- The wander of the pulse is exceeded. -/
def ppsWander : Int32 := 0x0400
/-- The calibration of the pulse failed. -/
def ppsError : Int32 := 0x0800
/-- The clock hardware has a fault. -/
def clockError : Int32 := 0x1000
/-- The resolution is one nanosecond instead of one microsecond. -/
def nano : Int32 := 0x2000
/-- The loop is frequency-locked instead of phase-locked. -/
def mode : Int32 := 0x4000
/-- The clock source is the second instead of the first. -/
def clockSource : Int32 := 0x8000
/-- The bits that only the kernel sets. -/
def readOnlyMask : Int32 :=
  ppsSignal ||| ppsJitter ||| ppsWander ||| ppsError ||| clockError ||| nano ||| mode ||| clockSource

end ClockStatus

/-- Parameters of the clock discipline. -/
structure ClockAdjustment where
  modes : AdjustMode := ⟨0⟩
  /-- In nanoseconds if `status` has `nano`, otherwise in microseconds. -/
  offset : Int64 := 0
  /-- In parts per million, with sixteen fractional bits. -/
  freq : Int64 := 0
  /-- In microseconds. -/
  maxError : Int64 := 0
  /-- In microseconds. -/
  estError : Int64 := 0
  status : ClockStatus := ⟨0⟩
  /-- Time constant of the phase-locked loop. -/
  constant : Int64 := 0
  /-- In microseconds, read only. -/
  precision : Int64 := 0
  /-- In parts per million with sixteen fractional bits, read only. -/
  tolerance : Int64 := 0
  /-- The current time; `usec` holds nanoseconds if `status` has `nano`. -/
  time : TimeVal := {}
  /-- Microseconds between clock ticks. -/
  tick : Int64 := 0
  ppsFreq : Int64 := 0
  jitter : Int64 := 0
  /-- Interval of the pulse per second, as a power of two of seconds. -/
  shift : Int64 := 0
  stability : Int64 := 0
  jitterCount : Int64 := 0
  calibrationCount : Int64 := 0
  errorCount : Int64 := 0
  stabilityCount : Int64 := 0
  /-- Offset of atomic time, in seconds. -/
  tai : Int32 := 0
deriving DecidableEq, Repr

end KernelControl
