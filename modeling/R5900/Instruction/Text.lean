import R5900.Text.Radix
import R5900.Instruction.Basic

/-!
# The text of an instruction

An instruction that has a destination is written as an assignment, `t0 = lw 0x10(sp)`; the others
start with the mnemonic. Shift amounts are decimal, all other numbers are in base sixteen without
padding.
-/

namespace R5900

/-- The mnemonic of a shift. -/
def ShiftOp.mnemonic : ShiftOp → String
  | .sll => "sll" | .srl => "srl" | .sra => "sra"
  | .dsll => "dsll" | .dsrl => "dsrl" | .dsra => "dsra"
  | .dsll32 => "dsll32" | .dsrl32 => "dsrl32" | .dsra32 => "dsra32"

/-- The mnemonic of a variable shift. -/
def VarShiftOp.mnemonic : VarShiftOp → String
  | .sllv => "sllv" | .srlv => "srlv" | .srav => "srav"
  | .dsllv => "dsllv" | .dsrlv => "dsrlv" | .dsrav => "dsrav"

/-- The mnemonic of an integer operation. -/
def AluOp.mnemonic : AluOp → String
  | .add => "add" | .addu => "addu" | .sub => "sub" | .subu => "subu"
  | .and => "and" | .or => "or" | .xor => "xor" | .nor => "nor"
  | .slt => "slt" | .sltu => "sltu"
  | .dadd => "dadd" | .daddu => "daddu" | .dsub => "dsub" | .dsubu => "dsubu"

/-- The mnemonic of an integer operation with an immediate. -/
def ImmOp.mnemonic : ImmOp → String
  | .addi => "addi" | .addiu => "addiu" | .slti => "slti" | .sltiu => "sltiu"
  | .andi => "andi" | .ori => "ori" | .xori => "xori"
  | .daddi => "daddi" | .daddiu => "daddiu"

/-- The mnemonic of a trap on two registers. -/
def TrapTest.mnemonic : TrapTest → String
  | .ge => "tge" | .geu => "tgeu" | .lt => "tlt" | .ltu => "tltu" | .eq => "teq" | .ne => "tne"

/-- The mnemonic of a trap on a register and an immediate. -/
def TrapTest.immMnemonic : TrapTest → String
  | .ge => "tgei" | .geu => "tgeiu" | .lt => "tlti" | .ltu => "tltiu" | .eq => "teqi"
  | .ne => "tnei"

/-- The mnemonic of a branch on two registers. -/
def PairTest.mnemonic : PairTest → String
  | .eq => "beq" | .ne => "bne"

/-- The mnemonic of a branch on one register. -/
def ZeroTest.mnemonic : ZeroTest → String
  | .lez => "blez" | .gtz => "bgtz" | .ltz => "bltz" | .gez => "bgez"

/-- The mnemonic of a linking branch. -/
def LinkTest.mnemonic : LinkTest → String
  | .ltz => "bltzal" | .gez => "bgezal"

/-- The mnemonic of a load. -/
def LoadOp.mnemonic : LoadOp → String
  | .lb => "lb" | .lbu => "lbu" | .lh => "lh" | .lhu => "lhu" | .lw => "lw" | .lwu => "lwu"
  | .ld => "ld" | .lq => "lq"

/-- The mnemonic of a store. -/
def StoreOp.mnemonic : StoreOp → String
  | .sb => "sb" | .sh => "sh" | .sw => "sw" | .sd => "sd" | .sq => "sq"

/-- The mnemonic of a partial load. -/
def PartLoadOp.mnemonic : PartLoadOp → String
  | .lwl => "lwl" | .lwr => "lwr" | .ldl => "ldl" | .ldr => "ldr"

/-- The mnemonic of a partial store. -/
def PartStoreOp.mnemonic : PartStoreOp → String
  | .swl => "swl" | .swr => "swr" | .sdl => "sdl" | .sdr => "sdr"

/-- The mnemonic of a quadword operation. -/
def ParallelOp.mnemonic : ParallelOp → String
  | .pcpyld => "pcpyld" | .pand => "pand" | .pxor => "pxor"
  | .pcpyud => "pcpyud" | .por => "por" | .pnor => "pnor"

/-- The mnemonic of a float operation on two registers. -/
def FloatOp.mnemonic : FloatOp → String
  | .add => "add.s" | .sub => "sub.s" | .mul => "mul.s" | .div => "div.s"

/-- The mnemonic of a float operation on one register. -/
def FloatMapOp.mnemonic : FloatMapOp → String
  | .abs => "abs.s" | .mov => "mov.s" | .neg => "neg.s"
  | .toWord => "cvt.w.s" | .ofWord => "cvt.s.w"

/-- The mnemonic of a float comparison. -/
def FloatTest.mnemonic : FloatTest → String
  | .eq => "c.eq.s" | .lt => "c.lt.s" | .le => "c.le.s"

/-- The mnemonic of a lookaside buffer instruction. -/
def TlbOp.mnemonic : TlbOp → String
  | .read => "tlbr" | .writeIndexed => "tlbwi" | .writeRandom => "tlbwr" | .probe => "tlbp"

/-- The mnemonic of a hint. -/
def HintOp.mnemonic : HintOp → String
  | .sync => "sync" | .cache => "cache" | .pref => "pref"

/-- The name of a half of a multiply result, with the suffix of its pipeline. -/
def ResultHalf.suffix (half : ResultHalf) (pipe : Pipeline) : String :=
  (match half with | .hi => "hi" | .lo => "lo") ++ (match pipe with | .zero => "" | .one => "1")

/-- The mnemonic of an unsigned or signed operation of a multiply pipeline. -/
def Pipeline.mnemonic (base : String) (signed : Bool) (pipe : Pipeline) : String :=
  base ++ (if signed then "" else "u") ++ (match pipe with | .zero => "" | .one => "1")

namespace Instruction

/-- A destination, a mnemonic and operands: `t0 = addu t1, t2`. -/
def assignment (destination mnemonic : String) (operands : List String) : String :=
  destination ++ " = " ++ mnemonic ++
    (if operands.isEmpty then "" else " " ++ ", ".intercalate operands)

/-- A mnemonic and operands: `beq t1, t2, 0x10`. -/
def statement (mnemonic : String) (operands : List String) : String :=
  mnemonic ++ (if operands.isEmpty then "" else " " ++ ", ".intercalate operands)

/-- An immediate or offset. -/
def immediate (imm : UInt16) : String := Text.hex imm.toNat

/-- An offset and a base register: `0x10(sp)`. -/
def memoryOperand (offset : UInt16) (base : Gpr) : String :=
  immediate offset ++ "(" ++ base.name ++ ")"

/-- The suffix of a branch that annuls its delay slot when not taken. -/
def likelySuffix (likely : Bool) : String := if likely then "l" else ""

/-- The text of an instruction. -/
def text : Instruction → String
  | .unknown word => "unknown " ++ Text.address word
  | .shift op rd rt amount => assignment rd.name op.mnemonic [rt.name, toString amount.toNat]
  | .shiftBy op rd rt rs => assignment rd.name op.mnemonic [rt.name, rs.name]
  | .alu op rd rs rt => assignment rd.name op.mnemonic [rs.name, rt.name]
  | .aluImm op rt rs imm => assignment rt.name op.mnemonic [rs.name, immediate imm]
  | .loadUpper rt imm => assignment rt.name "lui" [immediate imm]
  | .moveIf isZero rd rs rt =>
    assignment rd.name (if isZero then "movz" else "movn") [rs.name, rt.name]
  | .moveFromResult half pipe rd => assignment rd.name ("mf" ++ half.suffix pipe) []
  | .moveToResult half pipe rs => statement ("mt" ++ half.suffix pipe) [rs.name]
  | .multiply signed pipe rd rs rt =>
    assignment rd.name (pipe.mnemonic "mult" signed) [rs.name, rt.name]
  | .multiplyAdd signed pipe rd rs rt =>
    assignment rd.name (pipe.mnemonic "madd" signed) [rs.name, rt.name]
  | .divide signed pipe rs rt => statement (pipe.mnemonic "div" signed) [rs.name, rt.name]
  | .moveFromShiftAmount rd => assignment rd.name "mfsa" []
  | .moveToShiftAmount rs => statement "mtsa" [rs.name]
  | .leadingSigns rd rs => assignment rd.name "plzcw" [rs.name]
  | .parallel op rd rs rt => assignment rd.name op.mnemonic [rs.name, rt.name]
  | .syscall => "syscall"
  | .breakpoint => "break"
  | .hint op => op.mnemonic
  | .trap test rs rt => statement test.mnemonic [rs.name, rt.name]
  | .trapImm test rs imm => statement test.immMnemonic [rs.name, immediate imm]
  | .jumpRegister rs => statement "jr" [rs.name]
  | .jumpLinkRegister rd rs => assignment rd.name "jalr" [rs.name]
  | .jump link target => statement (if link then "jal" else "j") [Text.hex target.toNat]
  | .branchPair test likely rs rt offset =>
    statement (test.mnemonic ++ likelySuffix likely) [rs.name, rt.name, immediate offset]
  | .branchZero test likely rs offset =>
    statement (test.mnemonic ++ likelySuffix likely) [rs.name, immediate offset]
  | .branchLink test likely rs offset =>
    statement (test.mnemonic ++ likelySuffix likely) [rs.name, immediate offset]
  | .branchFloat condition likely offset =>
    statement ((if condition then "bc1t" else "bc1f") ++ likelySuffix likely) [immediate offset]
  | .moveFromControl rt cd => assignment rt.name "mfc0" [cd.name]
  | .moveToControl cd rt => assignment cd.name "mtc0" [rt.name]
  | .tlb op => op.mnemonic
  | .exceptionReturn => "eret"
  | .setInterruptEnable value => if value then "ei" else "di"
  | .moveFromFloat rt fs => assignment rt.name "mfc1" [fs.name]
  | .moveFromFloatControl rt fs => assignment rt.name "cfc1" [fs.name]
  | .moveToFloat fs rt => assignment fs.name "mtc1" [rt.name]
  | .moveToFloatControl fs rt => assignment fs.name "ctc1" [rt.name]
  | .floatOp op fd fs ft => assignment fd.name op.mnemonic [fs.name, ft.name]
  | .floatMap op fd fs => assignment fd.name op.mnemonic [fs.name]
  | .floatCompare test fs ft => statement test.mnemonic [fs.name, ft.name]
  | .load op rt offset base => assignment rt.name op.mnemonic [memoryOperand offset base]
  | .store op rt offset base => statement op.mnemonic [rt.name, memoryOperand offset base]
  | .loadPart op rt offset base => assignment rt.name op.mnemonic [memoryOperand offset base]
  | .storePart op rt offset base => statement op.mnemonic [rt.name, memoryOperand offset base]
  | .loadFloat ft offset base => assignment ft.name "lwc1" [memoryOperand offset base]
  | .storeFloat ft offset base => statement "swc1" [ft.name, memoryOperand offset base]

end Instruction

end R5900
