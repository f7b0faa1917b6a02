import R5900.Text.Radix

/-!
# Exceptions, interrupt lines and privilege modes

The events that divert the processor to a handler, the external lines that ask for an interrupt, and
the three privilege modes. An exception that concerns an address carries it.
-/

namespace R5900

/-- What diverts the processor to a handler. -/
inductive Exception where
  | interrupt
  | tlbRefillLoad (address : UInt32)
  | tlbRefillStore (address : UInt32)
  | addressErrorLoad (address : UInt32)
  | addressErrorStore (address : UInt32)
  | syscall
  | breakpoint
  | trap
  deriving DecidableEq, Repr

namespace Exception

/-- The code that `Cause` records. -/
def code : Exception → UInt32
  | .interrupt => 0
  | .tlbRefillLoad _ => 2
  | .tlbRefillStore _ => 3
  | .addressErrorLoad _ => 4
  | .addressErrorStore _ => 5
  | .syscall => 8
  | .breakpoint => 9
  | .trap => 13

/-- The address an exception is about. -/
def badAddress? : Exception → Option UInt32
  | .tlbRefillLoad a => some a
  | .tlbRefillStore a => some a
  | .addressErrorLoad a => some a
  | .addressErrorStore a => some a
  | _ => none

/-- The text of an exception. -/
def text : Exception → String
  | .interrupt => "interrupt"
  | .tlbRefillLoad a => "TLB refill on load at " ++ Text.address a
  | .tlbRefillStore a => "TLB refill on store at " ++ Text.address a
  | .addressErrorLoad a => "address error on load at " ++ Text.address a
  | .addressErrorStore a => "address error on store at " ++ Text.address a
  | .syscall => "syscall"
  | .breakpoint => "breakpoint"
  | .trap => "trap"

end Exception

/-- An external line that asks for an interrupt. -/
inductive Line where
  /-- The interrupt controller. -/
  | int0
  /-- The DMA controller. -/
  | int1
  /-- The cycle counter reaching its comparison value. -/
  | timer
  deriving DecidableEq, Repr

namespace Line

/-- The position of the line among the bits of `Cause` and `Status`. -/
def position : Line → UInt32
  | .int0 => 10
  | .int1 => 11
  | .timer => 15

/-- The name of a line. -/
def name : Line → String
  | .int0 => "Int0"
  | .int1 => "Int1"
  | .timer => "Timer"

/-- The line of a name. -/
def ofName? (name : String) : Option Line := [int0, int1, timer].find? (·.name = name)

end Line

/-- A privilege mode. -/
inductive Mode where
  | kernel | supervisor | user
  deriving DecidableEq, Repr

/-- The name of a mode. -/
def Mode.name : Mode → String
  | .kernel => "Kernel"
  | .supervisor => "Supervisor"
  | .user => "User"

end R5900
