import R5900.AddressSpace
import R5900.FloatUnit
import R5900.Memory
import R5900.Register
import R5900.SystemControl
import R5900.Word.Quad
import R5900.Word.SignExtend

/-!
# The processor's state

`Core` holds the registers, the control and float units, the scratchpad and the state of a pending
branch. A taken branch is remembered until the instruction in its delay slot has run; then the
program counter moves to its target.

Instructions see registers in three widths. A word is written sign-extended into the low doubleword,
a doubleword replaces the low doubleword, and both keep the high one; a quadword replaces it all.
The zero register ignores every write.
-/

namespace R5900

/-- The doubleword of a quadword that belongs to a pipeline. -/
@[inline] def Pipeline.part (pipe : Pipeline) (q : Quad) : UInt64 :=
  match pipe with
  | .zero => q.lo
  | .one => q.hi

/-- Replace the doubleword of a quadword that belongs to a pipeline. -/
@[inline] def Pipeline.replace (pipe : Pipeline) (q : Quad) (value : UInt64) : Quad :=
  match pipe with
  | .zero => q.withLow value
  | .one => q.withHigh value

/-- The processor. -/
structure Core where
  pc : UInt32
  /-- Where the last taken branch goes. -/
  branchTarget : UInt32
  /-- Whether the next instruction is in the delay slot of a taken branch. -/
  isBranching : Bool
  /-- How many instructions run before the branch takes effect. -/
  delaySlot : UInt8
  /-- The last word fetched outside a delay slot. -/
  current : UInt32
  /-- The last word fetched in a delay slot. -/
  next : UInt32
  registers : Vector Quad 32
  hi : Quad
  lo : Quad
  shiftAmount : UInt32
  control : SystemControl
  float : FloatUnit
  mode : Mode
  scratchpad : Memory scratchpadSize

namespace Core

/-- The address at which a reset processor starts. -/
def resetVector : UInt32 := 0xBFC00000

/-- A reset processor. -/
def initial : Core where
  pc := resetVector
  branchTarget := 0
  isBranching := false
  delaySlot := 0
  current := 0
  next := 0
  registers := Vector.replicate 32 Quad.zero
  hi := Quad.zero
  lo := Quad.zero
  shiftAmount := 0
  control := .initial
  float := .initial
  mode := .kernel
  scratchpad := .zero scratchpadSize

/-! ## Registers -/

/-- A general register. -/
@[inline] def quad (c : Core) (r : Gpr) : Quad := c.registers[r.index]

/-- The low doubleword of a general register. -/
@[inline] def double (c : Core) (r : Gpr) : UInt64 := (c.quad r).lo

/-- The low word of a general register. -/
@[inline] def word (c : Core) (r : Gpr) : UInt32 := (c.double r).toUInt32

/-- Replace a general register. -/
@[inline] def setQuad (c : Core) (r : Gpr) (value : Quad) : Core :=
  if r.index.val = 0 then c else { c with registers := c.registers.set r.index value }

/-- Replace the low doubleword of a general register. -/
@[inline] def setDouble (c : Core) (r : Gpr) (value : UInt64) : Core :=
  c.setQuad r ((c.quad r).withLow value)

/-- Write a word to a general register, sign-extended to a doubleword. -/
@[inline] def setWord (c : Core) (r : Gpr) (value : UInt32) : Core :=
  c.setDouble r (signExtend32 value)

/-- Any register. -/
def get (c : Core) : Reg → Quad
  | .gpr r => c.quad r
  | .lo => c.lo
  | .hi => c.hi

/-- Replace any register. -/
def set (c : Core) (r : Reg) (value : Quad) : Core :=
  match r with
  | .gpr r => c.setQuad r value
  | .lo => { c with lo := value }
  | .hi => { c with hi := value }

/-! ## The multiply result -/

/-- A half of the multiply result. -/
@[inline] def result (c : Core) : ResultHalf → Quad
  | .hi => c.hi
  | .lo => c.lo

/-- Write the doubleword of a pipeline in a half of the multiply result. -/
@[inline] def setResult (c : Core) (half : ResultHalf) (pipe : Pipeline) (value : UInt64) : Core :=
  match half with
  | .hi => { c with hi := pipe.replace c.hi value }
  | .lo => { c with lo := pipe.replace c.lo value }

/-- Write both words of a pipeline's multiply result, each sign-extended. -/
def setResultWords (c : Core) (pipe : Pipeline) (hi lo : UInt32) : Core :=
  (c.setResult .hi pipe (signExtend32 hi)).setResult .lo pipe (signExtend32 lo)

/-- The doubleword that the low words of a pipeline's multiply result spell. -/
def accumulator (c : Core) (pipe : Pipeline) : UInt64 :=
  (pipe.part c.hi).toUInt32.toUInt64 <<< 32 ||| (pipe.part c.lo).toUInt32.toUInt64

/-! ## Branches -/

/-- Take a branch once the delay slot has run. -/
@[inline] def branchTo (c : Core) (target : UInt32) : Core :=
  { c with branchTarget := target, isBranching := true, delaySlot := 1 }

/-- Forget a pending branch. -/
@[inline] def cancelBranch (c : Core) : Core := { c with isBranching := false, delaySlot := 0 }

/-- Start at an address. -/
def enterAt (c : Core) (pc : UInt32) : Core := { c with pc := pc }.cancelBranch

/-! ## Interrupt lines -/

/-- Latch a line. -/
@[inline] def request (c : Core) (line : Line) : Core :=
  { c with control := c.control.request line }

/-- Release a line. -/
@[inline] def release (c : Core) (line : Line) : Core :=
  { c with control := c.control.release line }

end Core

end R5900
