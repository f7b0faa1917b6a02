import R5900.Proofs.Instruction.Field
import R5900.Proofs.Instruction.Kind

/-!
# Encoding

A word has in some fields what selects the kind of its instruction, the same for all instructions
of the kind, and in others the operands. The encoding of an instruction has both in their fields and
zeros elsewhere.

* `Kind.selectors`, `Kind.operandFields`: the fields of a kind, with the values of those that select
  it.
* `Instruction.encode`: the word put together from the two.
* `Instruction.Encodable`: what has an encoding: no unknown word, and only the shift amounts and
  jump targets that fit their fields.
* `Instruction.wellPlaced_contents`: the fields of an encodable instruction do not overlap and hold
  their values.
-/

namespace R5900

open Encoding

/-! ## Codes -/

/-- The function of a shift by a constant. -/
def ShiftOp.function : ShiftOp → UInt32
  | .sll => 0x00 | .srl => 0x02 | .sra => 0x03
  | .dsll => 0x38 | .dsrl => 0x3A | .dsra => 0x3B
  | .dsll32 => 0x3C | .dsrl32 => 0x3E | .dsra32 => 0x3F

/-- The function of a variable shift. -/
def VarShiftOp.function : VarShiftOp → UInt32
  | .sllv => 0x04 | .srlv => 0x06 | .srav => 0x07
  | .dsllv => 0x14 | .dsrlv => 0x16 | .dsrav => 0x17

/-- The function of an integer operation. -/
def AluOp.function : AluOp → UInt32
  | .add => 0x20 | .addu => 0x21 | .sub => 0x22 | .subu => 0x23
  | .and => 0x24 | .or => 0x25 | .xor => 0x26 | .nor => 0x27
  | .slt => 0x2A | .sltu => 0x2B
  | .dadd => 0x2C | .daddu => 0x2D | .dsub => 0x2E | .dsubu => 0x2F

/-- The primary opcode of an integer operation with an immediate. -/
def ImmOp.opcode : ImmOp → UInt32
  | .addi => 0x08 | .addiu => 0x09 | .slti => 0x0A | .sltiu => 0x0B
  | .andi => 0x0C | .ori => 0x0D | .xori => 0x0E
  | .daddi => 0x18 | .daddiu => 0x19

/-- The function of a trap on two registers. -/
def TrapTest.function : TrapTest → UInt32
  | .ge => 0x30 | .geu => 0x31 | .lt => 0x32 | .ltu => 0x33 | .eq => 0x34 | .ne => 0x36

/-- The selector of a trap on a register and an immediate. -/
def TrapTest.selector : TrapTest → UInt32
  | .ge => 0x08 | .geu => 0x09 | .lt => 0x0A | .ltu => 0x0B | .eq => 0x0C | .ne => 0x0E

/-- The primary opcode of a branch on two registers. -/
def PairTest.opcode (likely : Bool) : PairTest → UInt32
  | .eq => if likely then 0x14 else 0x04
  | .ne => if likely then 0x15 else 0x05

/-- The selector of a linking branch. -/
def LinkTest.selector (likely : Bool) : LinkTest → UInt32
  | .ltz => if likely then 0x12 else 0x10
  | .gez => if likely then 0x13 else 0x11

/-- The primary opcode of a load. -/
def LoadOp.opcode : LoadOp → UInt32
  | .lb => 0x20 | .lbu => 0x24 | .lh => 0x21 | .lhu => 0x25 | .lw => 0x23 | .lwu => 0x27
  | .ld => 0x37 | .lq => 0x1E

/-- The primary opcode of a store. -/
def StoreOp.opcode : StoreOp → UInt32
  | .sb => 0x28 | .sh => 0x29 | .sw => 0x2B | .sd => 0x3F | .sq => 0x1F

/-- The primary opcode of a partial load. -/
def PartLoadOp.opcode : PartLoadOp → UInt32
  | .lwl => 0x22 | .lwr => 0x26 | .ldl => 0x1A | .ldr => 0x1B

/-- The primary opcode of a partial store. -/
def PartStoreOp.opcode : PartStoreOp → UInt32
  | .swl => 0x2A | .swr => 0x2E | .sdl => 0x2C | .sdr => 0x2D

/-- The function of a quadword operation, and what selects it among those of that function. -/
def ParallelOp.code : ParallelOp → UInt32 × UInt32
  | .pcpyld => (0x09, 0x0E) | .pand => (0x09, 0x12) | .pxor => (0x09, 0x13)
  | .pcpyud => (0x29, 0x0E) | .por => (0x29, 0x12) | .pnor => (0x29, 0x13)

/-- The function of a float operation on two registers. -/
def FloatOp.function : FloatOp → UInt32
  | .add => 0x00 | .sub => 0x01 | .mul => 0x02 | .div => 0x03

/-- The format and the function of a float operation on one register. -/
def FloatMapOp.code : FloatMapOp → UInt32 × UInt32
  | .abs => (0x10, 0x05) | .mov => (0x10, 0x06) | .neg => (0x10, 0x07)
  | .toWord => (0x10, 0x24) | .ofWord => (0x14, 0x20)

/-- The function of a float comparison. -/
def FloatTest.function : FloatTest → UInt32
  | .eq => 0x32 | .lt => 0x34 | .le => 0x36

/-- The function of a lookaside buffer instruction. -/
def TlbOp.function : TlbOp → UInt32
  | .read => 0x01 | .writeIndexed => 0x02 | .writeRandom => 0x06 | .probe => 0x08

namespace Encoding

/-! ## Layouts -/

/-- A row of the primary table. -/
def primary (opcode : UInt32) : List (Field × UInt32) := [(.opcode, opcode)]

/-- A row of the table of opcode `0x00`. -/
def special (function : UInt32) : List (Field × UInt32) :=
  [(.opcode, 0x00), (.function, function)]

/-- A row of the table of opcode `0x01`. -/
def regimm (selector : UInt32) : List (Field × UInt32) := [(.opcode, 0x01), (.rt, selector)]

/-- A row of the table of opcode `0x1C`. -/
def multimedia (function : UInt32) : List (Field × UInt32) :=
  [(.opcode, 0x1C), (.function, function)]

/-- A row of one of the two tables of opcode `0x1C` that the shift amount chooses from. -/
def parallelOperation (function selector : UInt32) : List (Field × UInt32) :=
  [(.opcode, 0x1C), (.function, function), (.sa, selector)]

/-- A move of the system control unit. -/
def controlMove (selector : UInt32) : List (Field × UInt32) := [(.opcode, 0x10), (.rs, selector)]

/-- An operation of the system control unit. -/
def controlOperation (function : UInt32) : List (Field × UInt32) :=
  [(.opcode, 0x10), (.rs, 0x10), (.function, function)]

/-- A move of the float unit. -/
def floatMove (selector : UInt32) : List (Field × UInt32) := [(.opcode, 0x11), (.rs, selector)]

/-- A branch of the float unit. -/
def floatBranch (selector : UInt32) : List (Field × UInt32) :=
  [(.opcode, 0x11), (.rs, 0x08), (.rt, selector)]

/-- An operation of the float unit. -/
def floatOperation (format function : UInt32) : List (Field × UInt32) :=
  [(.opcode, 0x11), (.rs, format), (.function, function)]

/-- The table of the multiplications and moves of a pipeline. -/
def pipelined : Pipeline → UInt32 → List (Field × UInt32)
  | .zero => special
  | .one => multimedia

/-- A register as the value of a field. -/
def number (index : Fin 32) : UInt32 := UInt32.ofNat index.val

theorem toNat_number (index : Fin 32) : (number index).toNat = index.val :=
  UInt32.toNat_ofNat_of_lt' (Nat.lt_trans index.isLt (by decide))

/-- A register is the one that its number names. -/
theorem ofNat_number (index : Fin 32) : Fin.ofNat 32 (number index).toNat = index := by
  rw [toNat_number]
  exact Fin.ext (Nat.mod_eq_of_lt index.isLt)

/-- The register that a field of five bits names has the field as its number. -/
theorem number_ofNat {n : UInt32} (h : n.toNat < 32) : number (Fin.ofNat 32 n.toNat) = n := by
  refine UInt32.toNat_inj.1 ?_
  rw [toNat_number]
  exact Nat.mod_eq_of_lt h

end Encoding

/-- What an operand is in its field. -/
def Operand.value : Operand → UInt32
  | .gpr r => Encoding.number r.index
  | .control r => Encoding.number r.index
  | .float r => Encoding.number r.index
  | .amount n => n.toUInt32
  | .number n => n

namespace Kind

/-! ## Kinds -/

/-- The fields that say what kind of instruction it is. -/
def selectors : Kind → List (Field × UInt32)
  | .shift op => special op.function
  | .shiftBy op => special op.function
  | .alu op => special op.function
  | .aluImm op => primary op.opcode
  | .loadUpper => primary 0x0F
  | .moveIf isZero => special (if isZero then 0x0A else 0x0B)
  | .moveFromResult half pipe => pipelined pipe (match half with | .hi => 0x10 | .lo => 0x12)
  | .moveToResult half pipe => pipelined pipe (match half with | .hi => 0x11 | .lo => 0x13)
  | .multiply signed pipe => pipelined pipe (if signed then 0x18 else 0x19)
  | .multiplyAdd signed pipe => multimedia (match pipe with
    | .zero => if signed then 0x00 else 0x01
    | .one => if signed then 0x20 else 0x21)
  | .divide signed pipe => pipelined pipe (if signed then 0x1A else 0x1B)
  | .moveFromShiftAmount => special 0x28
  | .moveToShiftAmount => special 0x29
  | .leadingSigns => multimedia 0x04
  | .parallel op => parallelOperation op.code.1 op.code.2
  | .syscall => special 0x0C
  | .breakpoint => special 0x0D
  | .hint .sync => special 0x0F
  | .hint .cache => primary 0x2F
  | .hint .pref => primary 0x33
  | .trap test => special test.function
  | .trapImm test => regimm test.selector
  | .jumpRegister => special 0x08
  | .jumpLinkRegister => special 0x09
  | .jump link => primary (if link then 0x03 else 0x02)
  | .branchPair test likely => primary (test.opcode likely)
  | .branchZero .lez likely => primary (if likely then 0x16 else 0x06)
  | .branchZero .gtz likely => primary (if likely then 0x17 else 0x07)
  | .branchZero .ltz likely => regimm (if likely then 0x02 else 0x00)
  | .branchZero .gez likely => regimm (if likely then 0x03 else 0x01)
  | .branchLink test likely => regimm (test.selector likely)
  | .branchFloat condition likely =>
    floatBranch (if condition then if likely then 0x03 else 0x01 else if likely then 0x02 else 0x00)
  | .moveFromControl => controlMove 0x00
  | .moveToControl => controlMove 0x04
  | .tlb op => controlOperation op.function
  | .exceptionReturn => controlOperation 0x18
  | .setInterruptEnable value => controlOperation (if value then 0x38 else 0x39)
  | .moveFromFloat => floatMove 0x00
  | .moveFromFloatControl => floatMove 0x02
  | .moveToFloat => floatMove 0x04
  | .moveToFloatControl => floatMove 0x06
  | .floatOp op => floatOperation 0x10 op.function
  | .floatMap op => floatOperation op.code.1 op.code.2
  | .floatCompare test => floatOperation 0x10 test.function
  | .load op => primary op.opcode
  | .store op => primary op.opcode
  | .loadPart op => primary op.opcode
  | .storePart op => primary op.opcode
  | .loadFloat => primary 0x31
  | .storeFloat => primary 0x39

/-- The fields of the operands, in the order in which the instruction is written. -/
def operandFields : Kind → List Field
  | .syscall | .breakpoint | .hint _ | .tlb _ | .exceptionReturn | .setInterruptEnable _ => []
  | .shift _ => [.rd, .rt, .sa]
  | .shiftBy _ => [.rd, .rt, .rs]
  | .alu _ | .moveIf _ | .parallel _ | .multiply _ _ | .multiplyAdd _ _ => [.rd, .rs, .rt]
  | .aluImm _ => [.rt, .rs, .imm16]
  | .loadUpper => [.rt, .imm16]
  | .moveFromResult _ _ | .moveFromShiftAmount => [.rd]
  | .moveToResult _ _ | .moveToShiftAmount | .jumpRegister => [.rs]
  | .divide _ _ | .trap _ => [.rs, .rt]
  | .leadingSigns | .jumpLinkRegister => [.rd, .rs]
  | .trapImm _ | .branchZero _ _ | .branchLink _ _ => [.rs, .imm16]
  | .jump _ => [.imm26]
  | .branchPair _ _ => [.rs, .rt, .imm16]
  | .branchFloat _ _ => [.imm16]
  | .moveFromControl | .moveFromFloat | .moveFromFloatControl => [.rt, .rd]
  | .moveToControl | .moveToFloat | .moveToFloatControl => [.rd, .rt]
  | .floatOp _ => [.sa, .rd, .rt]
  | .floatMap _ => [.sa, .rd]
  | .floatCompare _ => [.rd, .rt]
  | .load _ | .store _ | .loadPart _ | .storePart _ | .loadFloat | .storeFloat => [.rt, .imm16, .rs]

/-- All fields of a kind: those that select it and those of its operands. -/
def fields (k : Kind) : List Field := k.selectors.map Prod.fst ++ k.operandFields

/-- The instruction of a kind with the operands that a word has in their fields. -/
def read (k : Kind) (w : UInt32) : Instruction :=
  match k with
  | .shift op => .shift op (rd w) (rt w) (sa w)
  | .shiftBy op => .shiftBy op (rd w) (rt w) (rs w)
  | .alu op => .alu op (rd w) (rs w) (rt w)
  | .aluImm op => .aluImm op (rt w) (rs w) (imm16 w)
  | .loadUpper => .loadUpper (rt w) (imm16 w)
  | .moveIf isZero => .moveIf isZero (rd w) (rs w) (rt w)
  | .moveFromResult half pipe => .moveFromResult half pipe (rd w)
  | .moveToResult half pipe => .moveToResult half pipe (rs w)
  | .multiply signed pipe => .multiply signed pipe (rd w) (rs w) (rt w)
  | .multiplyAdd signed pipe => .multiplyAdd signed pipe (rd w) (rs w) (rt w)
  | .divide signed pipe => .divide signed pipe (rs w) (rt w)
  | .moveFromShiftAmount => .moveFromShiftAmount (rd w)
  | .moveToShiftAmount => .moveToShiftAmount (rs w)
  | .leadingSigns => .leadingSigns (rd w) (rs w)
  | .parallel op => .parallel op (rd w) (rs w) (rt w)
  | .syscall => .syscall
  | .breakpoint => .breakpoint
  | .hint op => .hint op
  | .trap test => .trap test (rs w) (rt w)
  | .trapImm test => .trapImm test (rs w) (imm16 w)
  | .jumpRegister => .jumpRegister (rs w)
  | .jumpLinkRegister => .jumpLinkRegister (rd w) (rs w)
  | .jump link => .jump link (imm26 w)
  | .branchPair test likely => .branchPair test likely (rs w) (rt w) (imm16 w)
  | .branchZero test likely => .branchZero test likely (rs w) (imm16 w)
  | .branchLink test likely => .branchLink test likely (rs w) (imm16 w)
  | .branchFloat condition likely => .branchFloat condition likely (imm16 w)
  | .moveFromControl => .moveFromControl (rt w) (cd w)
  | .moveToControl => .moveToControl (cd w) (rt w)
  | .tlb op => .tlb op
  | .exceptionReturn => .exceptionReturn
  | .setInterruptEnable value => .setInterruptEnable value
  | .moveFromFloat => .moveFromFloat (rt w) (fs w)
  | .moveFromFloatControl => .moveFromFloatControl (rt w) (fs w)
  | .moveToFloat => .moveToFloat (fs w) (rt w)
  | .moveToFloatControl => .moveToFloatControl (fs w) (rt w)
  | .floatOp op => .floatOp op (fd w) (fs w) (ft w)
  | .floatMap op => .floatMap op (fd w) (fs w)
  | .floatCompare test => .floatCompare test (fs w) (ft w)
  | .load op => .load op (rt w) (imm16 w) (rs w)
  | .store op => .store op (rt w) (imm16 w) (rs w)
  | .loadPart op => .loadPart op (rt w) (imm16 w) (rs w)
  | .storePart op => .storePart op (rt w) (imm16 w) (rs w)
  | .loadFloat => .loadFloat (ft w) (imm16 w) (rs w)
  | .storeFloat => .storeFloat (ft w) (imm16 w) (rs w)

end Kind

namespace Instruction

/-! ## Instructions -/

/-- The values of the operands, in the order in which the instruction is written. -/
def values (i : Instruction) : List UInt32 := i.operands.map Operand.value

/-- What an instruction of a kind has in its fields. -/
def contents (i : Instruction) (k : Kind) : List (Field × UInt32) :=
  k.selectors ++ k.operandFields.zip i.values

/-- The word that encodes the instruction; an unknown word encodes itself. -/
def encode : Instruction → UInt32
  | .unknown word => word
  | i => i.kind?.elim 0 fun k => assemble (i.contents k)

/-- The instruction is one of a table, and its operands fit their fields. -/
def Encodable : Instruction → Prop
  | .unknown _ => False
  | .shift _ _ _ amount => amount < 32
  | .jump _ target => target.toNat < 2 ^ 26
  | _ => True

end Instruction

/-! ## Fields and values -/

namespace Kind

/-- What is checked kind by kind: the fields of a kind have no position in common, the primary
opcode is one of them, and those that select the kind hold their values. -/
theorem checked : ∀ k : Kind, k.fields.Pairwise Field.Disjoint ∧ Field.opcode ∈ k.fields ∧
    ∀ p ∈ k.selectors, p.1.Holds p.2 := by
  decide +kernel

theorem pairwise_fields (k : Kind) : k.fields.Pairwise Field.Disjoint := k.checked.1

theorem opcode_mem_fields (k : Kind) : Field.opcode ∈ k.fields := k.checked.2.1

theorem holds_selectors (k : Kind) : ∀ p ∈ k.selectors, p.1.Holds p.2 := k.checked.2.2

end Kind

namespace Encoding

/-- The fields of five bits hold the number of any register. -/
theorem holds_number {f : Field} (h : f ∈ [.rs, .rt, .rd, .sa]) (index : Fin 32) :
    f.Holds (number index) := by
  have hlength : f.length = 5 := by
    revert f
    decide
  rw [Field.Holds, hlength, toNat_number]
  exact index.isLt

theorem holds_imm16 (imm : UInt16) : Field.imm16.Holds imm.toUInt32 := by
  rw [Field.Holds, UInt16.toNat_toUInt32]
  exact imm.toNat_lt

/-- A shift amount that fits its field is below 32. -/
theorem holds_sa {amount : UInt8} (h : amount < 32) : Field.sa.Holds amount.toUInt32 := by
  rw [Field.Holds, UInt8.toNat_toUInt32]
  exact UInt8.lt_iff_toNat_lt.1 h

end Encoding

namespace Instruction

variable {i : Instruction} {k : Kind}

theorem length_values (hk : i.kind? = some k) : k.operandFields.length = i.values.length := by
  cases i <;> cases hk <;> rfl

theorem holds_values (hi : i.Encodable) (hk : i.kind? = some k) :
    ∀ p ∈ k.operandFields.zip i.values, p.1.Holds p.2 := by
  unfold values
  cases i <;> cases hk
  case shift => simp [Kind.operandFields, operands, Operand.value, holds_number, holds_sa hi]
  case jump =>
    simpa [Kind.operandFields, operands, Operand.value, Field.Holds, Field.length, Encodable]
      using hi
  all_goals simp [Kind.operandFields, operands, Operand.value, holds_number, holds_imm16]

theorem map_fst_contents (hk : i.kind? = some k) : (i.contents k).map Prod.fst = k.fields := by
  rw [contents, List.map_append, List.map_fst_zip (Nat.le_of_eq (length_values hk)), Kind.fields]

/-- The fields of an encodable instruction do not overlap and hold their values. -/
theorem wellPlaced_contents (hi : i.Encodable) (hk : i.kind? = some k) :
    WellPlaced (i.contents k) where
  holds p hp := by
    rcases List.mem_append.1 hp with hp | hp
    · exact k.holds_selectors p hp
    · exact holds_values hi hk p hp
  disjoint := List.pairwise_map.1 (map_fst_contents hk ▸ k.pairwise_fields)

theorem encode_eq (hk : i.kind? = some k) : i.encode = assemble (i.contents k) := by
  unfold encode
  split
  · cases hk
  · rw [hk, Option.elim_some]

end Instruction

end R5900
