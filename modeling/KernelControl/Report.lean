import KernelControl.Clock
import KernelControl.Decimal
import KernelControl.ErrorCode.Text
import KernelControl.Thread

/-!
# The report on clocks and scheduling

The report says what the calling thread can see of its clocks and its scheduling. It has eight sections, and each is the
text of one system call: five clocks, the affinity, the policy, and the state of the clock discipline. A call that
fails is reported by the text of its error, and the report goes on.
-/

namespace KernelControl

namespace Report

/-! ## Lines -/

/-- The name at the start of a line, in a column of fourteen characters, and a blank. -/
def label (name : String) : String :=
  name ++ String.ofList (List.replicate (14 - name.length) ' ') ++ " "

/-- The decimal text of an integer. -/
def decimal (n : Int) : String := String.ofList (Decimal.render n)

/-- The hexadecimal text of a natural number. -/
def hexadecimal (n : Nat) : String := String.ofList (Nat.toDigits 16 n)

/-- A time as seconds, a point and the nanoseconds, which take at least nine characters. -/
def timeText (ts : TimeSpec) : String :=
  decimal ts.sec.toInt ++ "." ++ String.ofList (Decimal.renderPadded 9 ts.nsec.toInt)

/-- The line of a call that failed. -/
def errorLine (name : String) (code : ErrorCode) : String := label name ++ "error: " ++ code.text ++ "\n"

/-- The line of a clock that was read. -/
def clockLine (name : String) (ts : TimeSpec) : String := label name ++ timeText ts ++ "\n"

/-- The line of an affinity: how many processors, and which. -/
def affinityLine (mask : CpuSet) : String :=
  label "affinity" ++ decimal mask.count ++ " cpus:" ++
    String.join (mask.toList.map fun c => " " ++ decimal c.val) ++ "\n"

/-- The line of a thread's policy. -/
def policyLine (attr : SchedAttr) : String :=
  label "policy" ++ decimal attr.policy.toNat ++ ", nice " ++ decimal attr.nice.toInt ++ "\n"

/-- The lines of the clock discipline. A clock that is not synchronized gets a line of its own. -/
def disciplineLines (state : ClockState) (adj : ClockAdjustment) : String :=
  label "clock state" ++ decimal state.raw.toInt ++
    ", status 0x" ++ hexadecimal adj.status.raw.toUInt32.toNat ++
    ", tick " ++ decimal adj.tick.toInt ++ " us" ++
    ", tai offset " ++ decimal adj.tai.toInt ++ " s\n" ++
    (if adj.status.isSet ClockStatus.unsync then "clock is not synchronized\n" else "")

/-! ## Sections -/

/-- The clocks of the report and their names in it. -/
def clocks : List (String × ClockId) := [
  ("realtime", .realtime),
  ("monotonic", .monotonic),
  ("monotonic_raw", .monotonicRaw),
  ("boottime", .boottime),
  ("tai", .tai)]

/-- The section of a clock. -/
def clockSection (name : String) (clock : ClockId) : Program String := do
  match ← clock.getTime with
  | .ok ts => return clockLine name ts
  | .error code => return errorLine name code

/-- The section of the calling thread's affinity. -/
def affinitySection : Program String := do
  match ← ThreadId.self.getAffinity .empty with
  | (.ok _, mask) => return affinityLine mask
  | (.error code, _) => return errorLine "affinity" code

/-- The section of the calling thread's policy. -/
def policySection : Program String := do
  match ← ThreadId.self.getAttr 0 with
  | .ok attr => return policyLine attr
  | .error code => return errorLine "policy" code

/-- The section of the clock discipline, read by an adjustment that applies nothing. -/
def disciplineSection : Program String := do
  match ← ClockId.realtime.adjustTime {} with
  | (.ok state, adj) => return disciplineLines state adj
  | (.error code, _) => return errorLine "clock state" code

/-- The sections in the order of the report. -/
def sections : List (Program String) :=
  clocks.map (fun entry => clockSection entry.1 entry.2) ++ [affinitySection, policySection, disciplineSection]

end Report

/-- The whole report. -/
def report : Program String := do
  let texts ← Report.sections.mapM id
  return String.join texts

end KernelControl
