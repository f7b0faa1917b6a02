import R5900.CommandLine.Help
import R5900.CommandLine.Session

/-!
# The program

Reads the command line and the file it names, and prints what the session says. A run without end
prints its notes as they come.
-/

namespace R5900

/-- The bytes of a file, if it can be read. -/
def readImage? (path : String) : IO (Option ByteArray) := do
  try return some (← IO.FS.readBinFile path) catch _ => return none

/-- Print lines, and let them be seen. -/
def printLines (lines : List String) : IO Unit := do
  lines.forM IO.println
  (← IO.getStdout).flush

/-- The error that ends the program on a fault. -/
def faultError : IO.Error := IO.userError "the emulator cannot go on"

/-- The cycles that pass between two looks at the journal. -/
def stretch : UInt64 := 65536

/-- Pass cycles without end. -/
partial def runOn (s : Simulation) : IO Unit := do
  printLines s.machine.journal.lines
  match s with
  | ⟨⟨core, bus, journal⟩, schedule, config⟩ =>
    match Simulation.advance ⟨⟨core, bus, .upTo journal.threshold⟩, schedule, config⟩ stretch with
    | .ok s => runOn s
    | .error _ => throw faultError

/-- Run the session of a command line, and answer the exit code. -/
def runSession (a : Arguments) : IO UInt32 := do
  let file ← match a.imagePath? with
    | some path => readImage? path
    | none => pure none
  match Session.of a file with
  | .error _ => throw faultError
  | .ok (.endless s) => do
    runOn s
    return 0
  | .ok (.ended report) => do
    printLines report.lines
    match report.error with
    | none => return 0
    | some error => do
      IO.eprintln ("Error: " ++ error.text)
      return 1

/-- Run the program on its arguments, and answer the exit code. -/
def runProgram (args : List String) : IO UInt32 := do
  match Arguments.parse args with
  | .error error => do
    IO.eprintln error.text
    return 1
  | .ok .help => do
    printLines helpLines
    return 0
  | .ok (.run a) => runSession a

end R5900

/-- The program. -/
def main (args : List String) : IO UInt32 := R5900.runProgram args
