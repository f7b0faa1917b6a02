import R5900.Register

/-!
# Instructions

Instructions are grouped by what they do: each group is one constructor with an operation that says
which member it is, and the operands in the order in which the instruction is written. An immediate
or a branch offset is kept as the halfword of the encoding.

A word that encodes nothing is an instruction too: `unknown`, which does nothing when executed.
-/

namespace R5900

/-- Shifts by a constant amount. -/
inductive ShiftOp where
  | sll | srl | sra | dsll | dsrl | dsra | dsll32 | dsrl32 | dsra32
  deriving DecidableEq, Repr

/-- Shifts by an amount in a register. -/
inductive VarShiftOp where
  | sllv | srlv | srav | dsllv | dsrlv | dsrav
  deriving DecidableEq, Repr

/-- Integer operations on two registers. -/
inductive AluOp where
  | add | addu | sub | subu | and | or | xor | nor | slt | sltu | dadd | daddu | dsub | dsubu
  deriving DecidableEq, Repr

/-- Integer operations on a register and an immediate. -/
inductive ImmOp where
  | addi | addiu | slti | sltiu | andi | ori | xori | daddi | daddiu
  deriving DecidableEq, Repr

/-- The comparisons a trap can make. -/
inductive TrapTest where
  | ge | geu | lt | ltu | eq | ne
  deriving DecidableEq, Repr

/-- The comparisons of two registers a branch can make. -/
inductive PairTest where
  | eq | ne
  deriving DecidableEq, Repr

/-- The comparisons of a register with zero a branch can make. -/
inductive ZeroTest where
  | lez | gtz | ltz | gez
  deriving DecidableEq, Repr

/-- The comparisons with zero a linking branch can make. -/
inductive LinkTest where
  | ltz | gez
  deriving DecidableEq, Repr

/-- A linking branch compares as the branch that does not link. -/
def LinkTest.zeroTest : LinkTest → ZeroTest
  | .ltz => .ltz
  | .gez => .gez

/-- Loads into a general register. -/
inductive LoadOp where
  | lb | lbu | lh | lhu | lw | lwu | ld | lq
  deriving DecidableEq, Repr

/-- Stores from a general register. -/
inductive StoreOp where
  | sb | sh | sw | sd | sq
  deriving DecidableEq, Repr

/-- Loads of the left or right part of an unaligned word or doubleword. -/
inductive PartLoadOp where
  | lwl | lwr | ldl | ldr
  deriving DecidableEq, Repr

/-- Stores of the left or right part of an unaligned word or doubleword. -/
inductive PartStoreOp where
  | swl | swr | sdl | sdr
  deriving DecidableEq, Repr

/-- Operations on whole quadwords. -/
inductive ParallelOp where
  | pcpyld | pand | pxor | pcpyud | por | pnor
  deriving DecidableEq, Repr

/-- Float operations on two registers. -/
inductive FloatOp where
  | add | sub | mul | div
  deriving DecidableEq, Repr

/-- Float operations on one register; the last two convert to and from integer words. -/
inductive FloatMapOp where
  | abs | mov | neg | toWord | ofWord
  deriving DecidableEq, Repr

/-- Float comparisons. -/
inductive FloatTest where
  | eq | lt | le
  deriving DecidableEq, Repr

/-- Instructions on the address lookaside buffer, which is not modelled. -/
inductive TlbOp where
  | read | writeIndexed | writeRandom | probe
  deriving DecidableEq, Repr

/-- Instructions that only concern caches and ordering, which are not modelled. -/
inductive HintOp where
  | sync | cache | pref
  deriving DecidableEq, Repr

/-- The two multiply pipelines: pipeline `one` keeps its result in the high doublewords. -/
inductive Pipeline where
  | zero | one
  deriving DecidableEq, Repr

/-- The two halves of a multiply result. -/
inductive ResultHalf where
  | hi | lo
  deriving DecidableEq, Repr

/-- A decoded instruction. -/
inductive Instruction where
  | unknown (word : UInt32)
  | shift (op : ShiftOp) (rd rt : Gpr) (amount : UInt8)
  | shiftBy (op : VarShiftOp) (rd rt rs : Gpr)
  | alu (op : AluOp) (rd rs rt : Gpr)
  | aluImm (op : ImmOp) (rt rs : Gpr) (imm : UInt16)
  | loadUpper (rt : Gpr) (imm : UInt16)
  /-- Move `rs` to `rd` if `rt` is zero, or if it is not. -/
  | moveIf (isZero : Bool) (rd rs rt : Gpr)
  | moveFromResult (half : ResultHalf) (pipe : Pipeline) (rd : Gpr)
  | moveToResult (half : ResultHalf) (pipe : Pipeline) (rs : Gpr)
  | multiply (signed : Bool) (pipe : Pipeline) (rd rs rt : Gpr)
  | multiplyAdd (signed : Bool) (pipe : Pipeline) (rd rs rt : Gpr)
  | divide (signed : Bool) (pipe : Pipeline) (rs rt : Gpr)
  | moveFromShiftAmount (rd : Gpr)
  | moveToShiftAmount (rs : Gpr)
  | leadingSigns (rd rs : Gpr)
  | parallel (op : ParallelOp) (rd rs rt : Gpr)
  | syscall
  | breakpoint
  | hint (op : HintOp)
  | trap (test : TrapTest) (rs rt : Gpr)
  | trapImm (test : TrapTest) (rs : Gpr) (imm : UInt16)
  | jumpRegister (rs : Gpr)
  | jumpLinkRegister (rd rs : Gpr)
  /-- Jump within the region of the delay slot to four times `target`. -/
  | jump (link : Bool) (target : UInt32)
  | branchPair (test : PairTest) (likely : Bool) (rs rt : Gpr) (offset : UInt16)
  | branchZero (test : ZeroTest) (likely : Bool) (rs : Gpr) (offset : UInt16)
  | branchLink (test : LinkTest) (likely : Bool) (rs : Gpr) (offset : UInt16)
  | branchFloat (condition : Bool) (likely : Bool) (offset : UInt16)
  | moveFromControl (rt : Gpr) (cd : ControlReg)
  | moveToControl (cd : ControlReg) (rt : Gpr)
  | tlb (op : TlbOp)
  | exceptionReturn
  | setInterruptEnable (value : Bool)
  | moveFromFloat (rt : Gpr) (fs : Fpr)
  | moveFromFloatControl (rt : Gpr) (fs : Fpr)
  | moveToFloat (fs : Fpr) (rt : Gpr)
  | moveToFloatControl (fs : Fpr) (rt : Gpr)
  | floatOp (op : FloatOp) (fd fs ft : Fpr)
  | floatMap (op : FloatMapOp) (fd fs : Fpr)
  | floatCompare (test : FloatTest) (fs ft : Fpr)
  | load (op : LoadOp) (rt : Gpr) (offset : UInt16) (base : Gpr)
  | store (op : StoreOp) (rt : Gpr) (offset : UInt16) (base : Gpr)
  | loadPart (op : PartLoadOp) (rt : Gpr) (offset : UInt16) (base : Gpr)
  | storePart (op : PartStoreOp) (rt : Gpr) (offset : UInt16) (base : Gpr)
  | loadFloat (ft : Fpr) (offset : UInt16) (base : Gpr)
  | storeFloat (ft : Fpr) (offset : UInt16) (base : Gpr)
  deriving DecidableEq, Repr

end R5900
