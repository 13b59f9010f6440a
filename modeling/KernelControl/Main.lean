import KernelControl.Call.Script
import KernelControl.Report

/-!
# The command line

Reads a script of replies from standard input, one on a line, and prints the report that these replies give.
-/

namespace KernelControl

/-- The report that a script of replies gives, if every line is a reply. -/
def reportOfScript? (lines : List String) : Option String := do
  let replies ← lines.mapM Reply.ofLine?
  return (report.run replies).1

/-- The lines of an input up to its end. -/
partial def readLines (input : IO.FS.Stream) : IO (List String) := do
  let line ← input.getLine
  if line.isEmpty then return []
  return line :: (← readLines input)

end KernelControl

/-- Prints the report, or says that the script could not be read. -/
def main : IO UInt32 := do
  let lines ← KernelControl.readLines (← IO.getStdin)
  match KernelControl.reportOfScript? lines with
  | some text =>
    IO.print text
    return 0
  | none =>
    IO.eprintln "a line of the script is no reply"
    return 1
