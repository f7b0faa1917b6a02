import R5900.BitField
import R5900.Exception
import R5900.Fault
import R5900.Register

/-!
# System control

The control registers and the latched interrupt lines. `raise` enters an exception handler and
`exceptionReturn` leaves it; `countCycles` advances the cycle counter; `publish` shows the latched
lines in `Cause`, and `interruptDue` says whether one of them is to be taken.

An exception inside an exception keeps the resume address, the delay-slot mark and the status of the
first one.
-/

namespace R5900

/-- The three lines that exist, as bits of `Status` and `Cause`. -/
def lineMask : UInt32 := 0x8C00

/-- The status register. -/
structure Status where
  bits : UInt32
  deriving DecidableEq, Repr

namespace Status

/-- Whether interrupts are enabled. -/
@[inline] def interruptEnable (s : Status) : Bool := testBit32 s.bits 0
/-- Whether an exception is being handled. -/
@[inline] def exceptionLevel (s : Status) : Bool := testBit32 s.bits 1
/-- Whether an error is being handled. -/
@[inline] def errorLevel (s : Status) : Bool := testBit32 s.bits 2
/-- The privilege field. -/
@[inline] def privilege (s : Status) : UInt32 := field32 s.bits 3 2
/-- Whether interrupts are enabled by the second enable bit, which has instructions of its own. -/
@[inline] def masterEnable (s : Status) : Bool := testBit32 s.bits 16
/-- Whether handlers are in boot memory. -/
@[inline] def bootVectors (s : Status) : Bool := testBit32 s.bits 22
/-- The lines that are let through. -/
@[inline] def lines (s : Status) : UInt32 := s.bits &&& lineMask

/-- Change whether interrupts are enabled. -/
def setInterruptEnable (s : Status) (value : Bool) : Status := ⟨putBit32 s.bits 0 value⟩
/-- Change whether an exception is being handled. -/
def setExceptionLevel (s : Status) (value : Bool) : Status := ⟨putBit32 s.bits 1 value⟩
/-- Change whether an error is being handled. -/
def setErrorLevel (s : Status) (value : Bool) : Status := ⟨putBit32 s.bits 2 value⟩
/-- Change the privilege field; only the two low bits of the value count. -/
def setPrivilege (s : Status) (value : UInt32) : Status :=
  ⟨s.bits &&& ~~~0x18 ||| (value <<< (3 : UInt32)) &&& 0x18⟩
/-- Change the second enable bit. -/
def setMasterEnable (s : Status) (value : Bool) : Status := ⟨putBit32 s.bits 16 value⟩
/-- Change whether handlers are in boot memory. -/
def setBootVectors (s : Status) (value : Bool) : Status := ⟨putBit32 s.bits 22 value⟩

/-- The privilege mode: always kernel mode while an exception or error is being handled. -/
def mode (s : Status) : Mode :=
  if s.exceptionLevel || s.errorLevel then .kernel
  else match s.privilege with
    | 0 => .kernel
    | 1 => .supervisor
    | _ => .user

end Status

/-- The cause register. -/
structure Cause where
  bits : UInt32
  deriving DecidableEq, Repr

namespace Cause

/-- The code of the last exception. -/
@[inline] def code (c : Cause) : UInt32 := field32 c.bits 2 5
/-- The pending lines. -/
@[inline] def lines (c : Cause) : UInt32 := c.bits &&& lineMask
/-- Whether the last exception hit a delay slot. -/
@[inline] def inDelaySlot (c : Cause) : Bool := testBit32 c.bits 31

/-- Change the code; only its five low bits count. -/
def setCode (c : Cause) (code : UInt32) : Cause :=
  ⟨c.bits &&& ~~~0x7C ||| (code <<< (2 : UInt32)) &&& 0x7C⟩
/-- Change the pending lines. -/
@[inline] def setLines (c : Cause) (lines : UInt32) : Cause :=
  ⟨c.bits &&& ~~~lineMask ||| lines &&& lineMask⟩
/-- Change whether the last exception hit a delay slot. -/
def setInDelaySlot (c : Cause) (value : Bool) : Cause := ⟨putBit32 c.bits 31 value⟩

end Cause

/-- The control registers and the latched lines. -/
structure SystemControl where
  registers : Vector UInt32 32
  /-- The latched lines, as bits of `Cause`. -/
  latched : UInt32
  deriving DecidableEq, Repr

namespace SystemControl

/-- What the identification register reads. -/
def processorId : UInt32 := 0x2E20

/-- What a register holds. -/
@[inline] def get (s : SystemControl) (r : ControlReg) : UInt32 := s.registers[r.index]

/-- Replace what a register holds. -/
@[inline] def put (s : SystemControl) (r : ControlReg) (value : UInt32) : SystemControl :=
  { s with registers := s.registers.set r.index value }

/-- All registers clear but the identification, and no line latched. -/
def initial : SystemControl :=
  ⟨(Vector.replicate 32 0).set ControlReg.prId.index processorId, 0⟩

/-- The status register. -/
@[inline] def status (s : SystemControl) : Status := ⟨s.get .status⟩
/-- Replace the status register. -/
@[inline] def setStatus (s : SystemControl) (status : Status) : SystemControl :=
  s.put .status status.bits
/-- The cause register. -/
@[inline] def cause (s : SystemControl) : Cause := ⟨s.get .cause⟩
/-- Replace the cause register. -/
@[inline] def setCause (s : SystemControl) (cause : Cause) : SystemControl := s.put .cause cause.bits
/-- The privilege mode. -/
@[inline] def mode (s : SystemControl) : Mode := s.status.mode

/-- Latch a line. -/
@[inline] def request (s : SystemControl) (line : Line) : SystemControl :=
  { s with latched := s.latched ||| (1 <<< line.position) }

/-- Release a line. -/
@[inline] def release (s : SystemControl) (line : Line) : SystemControl :=
  { s with latched := s.latched &&& ~~~(1 <<< line.position) }

/-- Write a register as software does: the identification cannot be written, and writing the
comparison value releases the timer line. -/
def write (s : SystemControl) (r : ControlReg) (value : UInt32) : SystemControl :=
  if r = .prId then s
  else if r = .compare then (s.put r value).release .timer
  else s.put r value

/-- Whether the counter passes the comparison value within the next cycles. -/
@[inline] def reachesCompare (s : SystemControl) (cycles : UInt32) : Bool :=
  cycles != 0 && s.get .compare - s.get .count - 1 < cycles

/-- Advance the counter, which wraps, and latch the timer line if it passes the comparison value. -/
@[inline] def countCycles (s : SystemControl) (cycles : UInt32) : SystemControl :=
  let reached := s.reachesCompare cycles
  let s := s.put .count (s.get .count + cycles)
  if reached then s.request .timer else s

/-- Where handlers start. -/
def vectorBase (status : Status) : UInt32 :=
  if status.bootVectors then 0xBFC00200 else 0x80000000

/-- The offset of the handler of an exception: lookaside misses and interrupts have their own,
unless an exception is already being handled. -/
def vectorOffset (e : Exception) (nested : Bool) : UInt32 :=
  if nested then 0x180
  else match e with
    | .tlbRefillLoad _ | .tlbRefillStore _ => 0x000
    | .interrupt => 0x200
    | _ => 0x180

/-- Record an exception and where to resume after it. -/
def enter (s : SystemControl) (e : Exception) (pc : UInt32) (inDelaySlot : Bool) :
    SystemControl :=
  let nested := s.status.exceptionLevel
  let cause := s.cause.setCode e.code
  let s := match e.badAddress? with
    | some a => s.put .badVAddr a
    | none => s
  if nested then s.setCause cause
  else
    let s := s.put .epc (if inDelaySlot then pc - 4 else pc)
    (s.setStatus (s.status.setExceptionLevel true)).setCause (cause.setInDelaySlot inDelaySlot)

/-- Take an exception: the address of its handler and the registers in it. -/
def raise (s : SystemControl) (e : Exception) (pc : UInt32) (inDelaySlot : Bool) :
    Except Fault (UInt32 × SystemControl) := do
  let handler ← Checked.add32 (vectorBase s.status) (vectorOffset e s.status.exceptionLevel)
  return (handler, s.enter e pc inDelaySlot)

/-- Leave an error or else an exception: the address to resume at and the registers after it. -/
def exceptionReturn (s : SystemControl) : UInt32 × SystemControl :=
  if s.status.errorLevel then
    (s.get .errorEpc, s.setStatus (s.status.setErrorLevel false))
  else (s.get .epc, s.setStatus (s.status.setExceptionLevel false))

/-- Show the latched lines in the cause register. -/
@[inline] def publish (s : SystemControl) : SystemControl :=
  s.setCause (s.cause.setLines s.latched)

/-- Whether a pending line is to be taken now. -/
@[inline] def interruptDue (s : SystemControl) : Bool :=
  let status := s.status
  status.interruptEnable && status.masterEnable && !status.exceptionLevel && !status.errorLevel &&
    s.cause.lines &&& status.lines != 0

end SystemControl

end R5900
