import R5900.BitField
import R5900.Text.Radix
import R5900.Device.Peripheral

/-!
# The interrupt controller

Every source latches a bit of the status register, and the controller asks for an interrupt while
any latched bit is unmasked. Writing one to a status bit acknowledges the source; writing one to a
mask bit toggles it.
-/

namespace R5900

/-- What can ask for an interrupt, in order of the status bit. -/
inductive InterruptSource where
  | gs | sbus | vblankStart | vblankEnd | vif0 | vif1 | vu0 | vu1 | ipu
  | timer0 | timer1 | timer2 | timer3 | sfifo | vu0Watchdog
  deriving DecidableEq, Repr

namespace InterruptSource

/-- The sources in order of the status bit. -/
def all : List InterruptSource :=
  [gs, sbus, vblankStart, vblankEnd, vif0, vif1, vu0, vu1, ipu, timer0, timer1, timer2, timer3,
    sfifo, vu0Watchdog]

/-- The status bit of a source. -/
def bit : InterruptSource → UInt32
  | .gs => 0
  | .sbus => 1
  | .vblankStart => 2
  | .vblankEnd => 3
  | .vif0 => 4
  | .vif1 => 5
  | .vu0 => 6
  | .vu1 => 7
  | .ipu => 8
  | .timer0 => 9
  | .timer1 => 10
  | .timer2 => 11
  | .timer3 => 12
  | .sfifo => 13
  | .vu0Watchdog => 14

/-- The name of a source. -/
def name : InterruptSource → String
  | .gs => "Gs"
  | .sbus => "Sbus"
  | .vblankStart => "VBlankStart"
  | .vblankEnd => "VBlankEnd"
  | .vif0 => "Vif0"
  | .vif1 => "Vif1"
  | .vu0 => "Vu0"
  | .vu1 => "Vu1"
  | .ipu => "Ipu"
  | .timer0 => "Timer0"
  | .timer1 => "Timer1"
  | .timer2 => "Timer2"
  | .timer3 => "Timer3"
  | .sfifo => "Sfifo"
  | .vu0Watchdog => "Vu0Watchdog"

/-- The source of a name. -/
def ofName? (name : String) : Option InterruptSource := all.find? (·.name = name)

/-- The source of a timer; an index past the last timer means the last one. -/
def timer : Nat → InterruptSource
  | 0 => .timer0
  | 1 => .timer1
  | 2 => .timer2
  | _ => .timer3

end InterruptSource

/-- The interrupt controller. -/
structure Intc where
  /-- The latched sources. -/
  status : UInt32
  /-- The sources that are let through. -/
  mask : UInt32
  deriving DecidableEq, Repr

namespace Intc

/-- The address of the status register. -/
def statusAddress : UInt32 := 0x1000F000
/-- The address of the mask register. -/
def maskAddress : UInt32 := 0x1000F010

/-- No source latched and none let through. -/
def initial : Intc := ⟨0, 0⟩

/-- Latch a source. -/
def raise (d : Intc) (source : InterruptSource) : Intc :=
  { d with status := putBit32 d.status source.bit true }

/-- What latching a source reports. -/
def raiseNote (source : InterruptSource) : Note :=
  ⟨.trace, fun _ => "INTC source " ++ source.name ++ " raised"⟩

/-- Whether an interrupt is asked for. -/
@[inline] def pending (d : Intc) : Bool := d.status &&& d.mask != 0

/-- Read the status or the mask; every other address reads zero. -/
def readWord (d : Intc) (address : UInt32) : Reply Intc UInt32 :=
  if address = statusAddress then ⟨d.status, d, []⟩
  else if address = maskAddress then ⟨d.mask, d, []⟩
  else ⟨0, d, [⟨.warn, fun _ => "Unknown INTC read at " ++ Text.address address⟩]⟩

/-- The report of both registers that follows every write. -/
def stateNote (d : Intc) : Note :=
  ⟨.trace, fun _ =>
    "I_STAT=" ++ Text.hexPadded 4 d.status.toNat ++ " I_MASK=" ++ Text.hexPadded 4 d.mask.toNat⟩

/-- Acknowledge sources or toggle mask bits; every other address ignores writes. -/
def writeWord (d : Intc) (address value : UInt32) : Reply Intc Unit :=
  if address = statusAddress then
    let d' := { d with status := d.status &&& ~~~value }
    ⟨(), d', [d'.stateNote]⟩
  else if address = maskAddress then
    let d' := { d with mask := d.mask ^^^ field32 value 0 15 }
    ⟨(), d', [d'.stateNote]⟩
  else
    ⟨(), d, [⟨.warn, fun _ => "Unknown INTC write of " ++ Text.address value ++ " at " ++
      Text.address address⟩, d.stateNote]⟩

instance : Peripheral Intc where
  readWord := readWord
  writeWord := writeWord
  retained _ := 0

end Intc

end R5900
