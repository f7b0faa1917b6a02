import R5900.CommandLine.Arguments
import R5900.Listing
import R5900.Load

/-!
# Sessions

What the program does for a command line, once the file it names has been read: it lists the file,
or loads and runs it. A session ends with the lines it printed and the error that ended it, if one
did. A run without a number of cycles has no end; what is left is the simulation that is ready to
run.
-/

namespace R5900

namespace Arguments

/-- The file that a session reads: a boot image wins over an executable file, and is no concern of
a listing. -/
def imagePath? (a : Arguments) : Option String :=
  if a.disassemble then a.file else a.boot <|> a.file

/-- The settings of a run. -/
def config (a : Arguments) : Config where
  busDivider := a.busDivider.getD Config.standard.busDivider
  entryPoint := a.entry
  cycles := a.cycles

/-- The least important notes to print. A filter is the name of a level, with or without the mark
that limits it to the notes of this program; without a filter, only errors are printed. -/
def threshold (a : Arguments) : Option Level :=
  match a.log with
  | none => some .error
  | some filter =>
    Level.ofName? (if filter.startsWith "emotion=" then (filter.drop 8).toString else filter)

end Arguments

/-- What a session printed, and what ended it. -/
structure Report where
  lines : List String
  error : Option LoadError
  deriving DecidableEq, Repr

/-- How a session goes on. -/
inductive Session where
  | ended (report : Report)
  | endless (simulation : Simulation)

namespace Simulation

/-- The report of a run that has ended. -/
def stoppedNote (s : Simulation) : Note :=
  ⟨.info, fun _ => "Stopped after " ++ toString s.schedule.cycle.toNat ++ " cycles at " ++
    Text.address s.machine.core.pc⟩

/-- Report that a run has ended. -/
def stop (s : Simulation) : Simulation := { s with machine := s.machine.report s.stoppedNote }

end Simulation

namespace Session

/-- The session that ends at once with an error. -/
def refused (error : LoadError) : Session := .ended ⟨[], some error⟩

/-- List an executable file. -/
def list (file : ByteArray) : Except Fault Session :=
  match Elf.read? file with
  | none => .ok (.refused .malformed)
  | some e =>
    match e.segments? with
    | none => .ok (.ended ⟨[e.entryLine], some .malformed⟩)
    | some segments => do return .ended ⟨e.entryLine :: (← Elf.listing segments), none⟩

/-- Load the file of a session: a boot image if the arguments name one. -/
def load (a : Arguments) (file : ByteArray) (m : Machine) : Loading :=
  if a.boot.isSome then m.loadBoot file else m.loadElf file a.entry.isNone

/-- Run a loaded simulation for the cycles of its settings. -/
def runLoaded (s : Simulation) : Except Fault Session :=
  match s.budget? none with
  | none => .ok (.endless s.start)
  | some cycles => do return .ended ⟨(← s.run cycles).stop.machine.journal.lines, none⟩

/-- Load and run the file of a session. -/
def runFile (a : Arguments) (file : ByteArray) : Except Fault Session :=
  match Simulation.initial a.config a.threshold with
  | ⟨machine, schedule, config⟩ =>
    match load a file machine with
    | .refused error m => .ok (.ended ⟨m.journal.lines, some error⟩)
    | .done m => runLoaded ⟨m, schedule, config⟩

/-- The session of a command line; `file` is what the file at `imagePath?` holds, if it can be
read. -/
def of (a : Arguments) (file : Option ByteArray) : Except Fault Session :=
  match a.imagePath?, file with
  | none, _ => .ok (.refused .noImage)
  | some _, none => .ok (.refused .unreadable)
  | some _, some file => if a.disassemble then list file else runFile a file

end Session

end R5900
