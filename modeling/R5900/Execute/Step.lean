import R5900.Execute.Instruction
import R5900.Instruction.Decode

/-!
# One step of the processor

A step fetches and executes one instruction, moves to the target of the branch whose delay slot it
was in, and delivers the exception it raised. Then the cycle counter advances, the latched lines
become visible, and an interrupt is delivered if one is due; last, the privilege mode is settled.

An exception that hits a delay slot resumes at the branch, and cancels it.
-/

namespace R5900

namespace Machine

open Exec

/-- The report of an instruction about to execute. -/
def executingNote (pc : UInt32) (i : Instruction) : Note :=
  ⟨.trace, fun _ => Text.address pc ++ ": " ++ i.text⟩

/-- The report of the cycle counter passing the comparison value. -/
def compareNote (compare : UInt32) : Note :=
  ⟨.trace, fun _ => "Count reached Compare " ++ Text.address compare⟩

/-- The report of an exception being delivered. -/
def exceptionNote (e : Exception) (pc : UInt32) (inDelaySlot : Bool) (handler : UInt32) : Note :=
  ⟨.debug, fun _ => "Exception " ++ e.text ++ " at " ++ Text.address pc ++ " (delay slot: " ++
    (if inDelaySlot then "true" else "false") ++ "), vector " ++ Text.address handler⟩

/-- Fetch the word at an aligned address. -/
@[inline] def fetch (pc : UInt32) (inDelaySlot : Bool) : Exec UInt32 := do
  if pc &&& 3 = 0 then
    let word ← Machine.read .word pc
    onCore fun c => if inDelaySlot then { c with next := word } else { c with current := word }
    return word
  else raise (.addressErrorLoad pc)

/-- Fetch the instruction at an address and execute it; the word zero only moves on. -/
def executeAt (pc : UInt32) (inDelaySlot : Bool) : Exec Unit := do
  let word ← fetch pc inDelaySlot
  if word = 0 then onCore fun c => { c with pc := pc + 4 }
  else
    let i := Instruction.decode word
    note (executingNote pc i)
    i.interpret

/-- Enter the handler of an exception. -/
def deliver (e : Exception) (pc : UInt32) (inDelaySlot : Bool) (m : Machine) :
    Except Fault Machine := do
  let (handler, control) ← m.core.control.raise e pc inDelaySlot
  return { m with
    core := { m.core.cancelBranch with control := control, pc := handler }
    journal := m.journal.add (exceptionNote e pc inDelaySlot handler) }

/-- Deliver an interrupt if one is due. -/
@[inline] def deliverInterrupt (m : Machine) : Except Fault Machine :=
  if m.core.control.interruptDue then m.deliver .interrupt m.core.pc m.core.isBranching else .ok m

/-- Advance the cycle counter by one and show the latched lines. -/
@[inline] def countCycle (m : Machine) : Machine :=
  match m with
  | ⟨core, bus, journal⟩ =>
    let journal :=
      if core.control.reachesCompare 1 then journal.add (compareNote (core.control.get .compare))
      else journal
    ⟨{ core with control := (core.control.countCycles 1).publish }, bus, journal⟩

/-- Settle the privilege mode by the status register. -/
@[inline] def settleMode (m : Machine) : Machine :=
  { m with core := { m.core with mode := m.core.control.mode } }

/-- End a step: count the cycle, deliver an interrupt if one is due, settle the mode. -/
def finishStep (m : Machine) : Except Fault Machine := do
  return (← m.countCycle.deliverInterrupt).settleMode

/-- Run one instruction. -/
def step (m : Machine) : Except Fault Machine :=
  let pc := m.core.pc
  let inDelaySlot := m.core.isBranching
  let target := m.core.branchTarget
  let m := if inDelaySlot then { m with core := m.core.cancelBranch } else m
  match executeAt pc inDelaySlot m with
  | .done _ m =>
    finishStep (if inDelaySlot then { m with core := { m.core with pc := target } } else m)
  | .raised e m => do finishStep (← m.deliver e pc inDelaySlot)
  | .faulted fault => .error fault

/-- Run a number of instructions. -/
def steps : Nat → Machine → Except Fault Machine
  | 0, m => .ok m
  | n + 1, m => do steps n (← m.step)

end Machine

end R5900
