/-!
# Clocks

The kernel names its clocks by small numbers. Eleven are known; 10 was a clock that has been removed, and its number is
not used again. Any other number can still be passed to the kernel, which then refuses it.
-/

namespace KernelControl

/-- A clock, by its number. -/
structure ClockId where
  raw : Int32
deriving DecidableEq, Repr

namespace ClockId

/-- Wall-clock time. It jumps when it is set. -/
def realtime : ClockId := ⟨0⟩
/-- Time since some point in the past. It never jumps and stops while the system is suspended. -/
def monotonic : ClockId := ⟨1⟩
/-- Processor time consumed by the process. -/
def processCputime : ClockId := ⟨2⟩
/-- Processor time consumed by the thread. -/
def threadCputime : ClockId := ⟨3⟩
/-- Like `monotonic`, without adjustment of its rate. -/
def monotonicRaw : ClockId := ⟨4⟩
/-- A faster and less precise `realtime`. -/
def realtimeCoarse : ClockId := ⟨5⟩
/-- A faster and less precise `monotonic`. -/
def monotonicCoarse : ClockId := ⟨6⟩
/-- Like `monotonic`, counting time in suspend too. -/
def boottime : ClockId := ⟨7⟩
/-- Like `realtime`; its timers wake a suspended system. -/
def realtimeAlarm : ClockId := ⟨8⟩
/-- Like `boottime`; its timers wake a suspended system. -/
def boottimeAlarm : ClockId := ⟨9⟩
/-- Wall-clock time without leap seconds. -/
def tai : ClockId := ⟨11⟩

/-- The known clocks and their names. -/
def named : List (String × ClockId) := [
  ("realtime", realtime),
  ("monotonic", monotonic),
  ("process_cputime", processCputime),
  ("thread_cputime", threadCputime),
  ("monotonic_raw", monotonicRaw),
  ("realtime_coarse", realtimeCoarse),
  ("monotonic_coarse", monotonicCoarse),
  ("boottime", boottime),
  ("realtime_alarm", realtimeAlarm),
  ("boottime_alarm", boottimeAlarm),
  ("tai", tai)]

/-- The known clock with the given number. -/
def ofRaw? (raw : Int32) : Option ClockId := (named.map Prod.snd).find? fun clock => clock.raw == raw

/-- The name of a known clock. -/
def name? (clock : ClockId) : Option String :=
  (named.find? fun entry => entry.2 == clock).map Prod.fst

/-- The known clock with the given name. -/
def ofName? (name : String) : Option ClockId := named.lookup name

/-- The clocks that can be set, or that stand still while the process or the thread does not run. -/
def unsteady : List ClockId := [realtime, realtimeCoarse, realtimeAlarm, tai, processCputime, threadCputime]

/-- The clock only moves forward, at the rate of real time. -/
def isSteady (clock : ClockId) : Bool := !unsteady.contains clock

end ClockId

/-- The state of the clock discipline that an adjustment reports, by its number. -/
structure ClockState where
  raw : Int32
deriving DecidableEq, Repr

end KernelControl
