import R5900.Instruction.Basic

/-!
# Kinds and operands

The kind of an instruction is what is left of it without its operands. An unknown word has no kind
and no operands.

* `Instruction.kind?`, `Instruction.operands`: the two parts of an instruction.
* `Kind.mem_all`: the list of all kinds, by which what can be decided of each kind can be decided of
  all.
-/

namespace R5900

/-! ## Enumerations -/

/-- A type with the list of its values. -/
class Listed (α : Type) where
  all : List α
  mem_all : ∀ a, a ∈ all

namespace Listed

instance : Listed Bool where
  all := [true, false]
  mem_all := by decide

instance : Listed ShiftOp where
  all := [.sll, .srl, .sra, .dsll, .dsrl, .dsra, .dsll32, .dsrl32, .dsra32]
  mem_all a := by cases a <;> decide

instance : Listed VarShiftOp where
  all := [.sllv, .srlv, .srav, .dsllv, .dsrlv, .dsrav]
  mem_all a := by cases a <;> decide

instance : Listed AluOp where
  all := [.add, .addu, .sub, .subu, .and, .or, .xor, .nor, .slt, .sltu, .dadd, .daddu, .dsub,
    .dsubu]
  mem_all a := by cases a <;> decide

instance : Listed ImmOp where
  all := [.addi, .addiu, .slti, .sltiu, .andi, .ori, .xori, .daddi, .daddiu]
  mem_all a := by cases a <;> decide

instance : Listed TrapTest where
  all := [.ge, .geu, .lt, .ltu, .eq, .ne]
  mem_all a := by cases a <;> decide

instance : Listed PairTest where
  all := [.eq, .ne]
  mem_all a := by cases a <;> decide

instance : Listed ZeroTest where
  all := [.lez, .gtz, .ltz, .gez]
  mem_all a := by cases a <;> decide

instance : Listed LinkTest where
  all := [.ltz, .gez]
  mem_all a := by cases a <;> decide

instance : Listed LoadOp where
  all := [.lb, .lbu, .lh, .lhu, .lw, .lwu, .ld, .lq]
  mem_all a := by cases a <;> decide

instance : Listed StoreOp where
  all := [.sb, .sh, .sw, .sd, .sq]
  mem_all a := by cases a <;> decide

instance : Listed PartLoadOp where
  all := [.lwl, .lwr, .ldl, .ldr]
  mem_all a := by cases a <;> decide

instance : Listed PartStoreOp where
  all := [.swl, .swr, .sdl, .sdr]
  mem_all a := by cases a <;> decide

instance : Listed ParallelOp where
  all := [.pcpyld, .pand, .pxor, .pcpyud, .por, .pnor]
  mem_all a := by cases a <;> decide

instance : Listed FloatOp where
  all := [.add, .sub, .mul, .div]
  mem_all a := by cases a <;> decide

instance : Listed FloatMapOp where
  all := [.abs, .mov, .neg, .toWord, .ofWord]
  mem_all a := by cases a <;> decide

instance : Listed FloatTest where
  all := [.eq, .lt, .le]
  mem_all a := by cases a <;> decide

instance : Listed TlbOp where
  all := [.read, .writeIndexed, .writeRandom, .probe]
  mem_all a := by cases a <;> decide

instance : Listed HintOp where
  all := [.sync, .cache, .pref]
  mem_all a := by cases a <;> decide

instance : Listed Pipeline where
  all := [.zero, .one]
  mem_all a := by cases a <;> decide

instance : Listed ResultHalf where
  all := [.hi, .lo]
  mem_all a := by cases a <;> decide

end Listed

/-- An instruction without its operands. -/
inductive Kind where
  | shift (op : ShiftOp)
  | shiftBy (op : VarShiftOp)
  | alu (op : AluOp)
  | aluImm (op : ImmOp)
  | loadUpper
  | moveIf (isZero : Bool)
  | moveFromResult (half : ResultHalf) (pipe : Pipeline)
  | moveToResult (half : ResultHalf) (pipe : Pipeline)
  | multiply (signed : Bool) (pipe : Pipeline)
  | multiplyAdd (signed : Bool) (pipe : Pipeline)
  | divide (signed : Bool) (pipe : Pipeline)
  | moveFromShiftAmount
  | moveToShiftAmount
  | leadingSigns
  | parallel (op : ParallelOp)
  | syscall
  | breakpoint
  | hint (op : HintOp)
  | trap (test : TrapTest)
  | trapImm (test : TrapTest)
  | jumpRegister
  | jumpLinkRegister
  | jump (link : Bool)
  | branchPair (test : PairTest) (likely : Bool)
  | branchZero (test : ZeroTest) (likely : Bool)
  | branchLink (test : LinkTest) (likely : Bool)
  | branchFloat (condition : Bool) (likely : Bool)
  | moveFromControl
  | moveToControl
  | tlb (op : TlbOp)
  | exceptionReturn
  | setInterruptEnable (value : Bool)
  | moveFromFloat
  | moveFromFloatControl
  | moveToFloat
  | moveToFloatControl
  | floatOp (op : FloatOp)
  | floatMap (op : FloatMapOp)
  | floatCompare (test : FloatTest)
  | load (op : LoadOp)
  | store (op : StoreOp)
  | loadPart (op : PartLoadOp)
  | storePart (op : PartStoreOp)
  | loadFloat
  | storeFloat
  deriving DecidableEq, Repr

namespace Kind

/-- The kinds with any value as their operation. -/
def each {α : Type} [Listed α] (kind : α → Kind) : List Kind := Listed.all.map kind

/-- The kinds with any two values. -/
def each₂ {α β : Type} [Listed α] [Listed β] (kind : α → β → Kind) : List Kind :=
  Listed.all.flatMap fun a => each (kind a)

theorem mem_each {α : Type} [Listed α] (kind : α → Kind) (a : α) : kind a ∈ each kind :=
  List.mem_map_of_mem (Listed.mem_all a)

theorem mem_each₂ {α β : Type} [Listed α] [Listed β] (kind : α → β → Kind) (a : α) (b : β) :
    kind a b ∈ each₂ kind :=
  List.mem_flatMap_of_mem (Listed.mem_all a) (mem_each (kind a) b)

/-- The kinds, a group for each way of making one. -/
def groups : List (List Kind) := [
  each .shift, each .shiftBy, each .alu, each .aluImm, [.loadUpper], each .moveIf,
  each₂ .moveFromResult, each₂ .moveToResult, each₂ .multiply, each₂ .multiplyAdd, each₂ .divide,
  [.moveFromShiftAmount], [.moveToShiftAmount], [.leadingSigns], each .parallel,
  [.syscall], [.breakpoint], each .hint, each .trap, each .trapImm,
  [.jumpRegister], [.jumpLinkRegister], each .jump,
  each₂ .branchPair, each₂ .branchZero, each₂ .branchLink, each₂ .branchFloat,
  [.moveFromControl], [.moveToControl], each .tlb, [.exceptionReturn], each .setInterruptEnable,
  [.moveFromFloat], [.moveFromFloatControl], [.moveToFloat], [.moveToFloatControl],
  each .floatOp, each .floatMap, each .floatCompare,
  each .load, each .store, each .loadPart, each .storePart, [.loadFloat], [.storeFloat]]

/-- All kinds. -/
def all : List Kind := groups.flatten

theorem mem_all (k : Kind) : k ∈ all := by
  cases k with
  | moveFromResult | moveToResult | multiply | multiplyAdd | divide
  | branchPair | branchZero | branchLink | branchFloat =>
    exact List.mem_flatten_of_mem (by repeat constructor) (mem_each₂ _ _ _)
  | shift | shiftBy | alu | aluImm | moveIf | parallel | hint | trap | trapImm | jump | tlb
  | setInterruptEnable | floatOp | floatMap | floatCompare | load | store | loadPart | storePart =>
    exact List.mem_flatten_of_mem (by repeat constructor) (mem_each _ _)
  | _ => exact List.mem_flatten_of_mem (by repeat constructor) (List.mem_singleton_self _)

/-- What can be decided of each kind can be decided of all. -/
instance (P : Kind → Prop) [DecidablePred P] : Decidable (∀ k, P k) :=
  decidable_of_iff (∀ k ∈ all, P k) ⟨fun h k => h k (mem_all k), fun h k _ => h k⟩

end Kind

/-- The kind of an instruction. -/
def Instruction.kind? : Instruction → Option Kind
  | .unknown _ => none
  | .shift op _ _ _ => some (.shift op)
  | .shiftBy op _ _ _ => some (.shiftBy op)
  | .alu op _ _ _ => some (.alu op)
  | .aluImm op _ _ _ => some (.aluImm op)
  | .loadUpper _ _ => some .loadUpper
  | .moveIf isZero _ _ _ => some (.moveIf isZero)
  | .moveFromResult half pipe _ => some (.moveFromResult half pipe)
  | .moveToResult half pipe _ => some (.moveToResult half pipe)
  | .multiply signed pipe _ _ _ => some (.multiply signed pipe)
  | .multiplyAdd signed pipe _ _ _ => some (.multiplyAdd signed pipe)
  | .divide signed pipe _ _ => some (.divide signed pipe)
  | .moveFromShiftAmount _ => some .moveFromShiftAmount
  | .moveToShiftAmount _ => some .moveToShiftAmount
  | .leadingSigns _ _ => some .leadingSigns
  | .parallel op _ _ _ => some (.parallel op)
  | .syscall => some .syscall
  | .breakpoint => some .breakpoint
  | .hint op => some (.hint op)
  | .trap test _ _ => some (.trap test)
  | .trapImm test _ _ => some (.trapImm test)
  | .jumpRegister _ => some .jumpRegister
  | .jumpLinkRegister _ _ => some .jumpLinkRegister
  | .jump link _ => some (.jump link)
  | .branchPair test likely _ _ _ => some (.branchPair test likely)
  | .branchZero test likely _ _ => some (.branchZero test likely)
  | .branchLink test likely _ _ => some (.branchLink test likely)
  | .branchFloat condition likely _ => some (.branchFloat condition likely)
  | .moveFromControl _ _ => some .moveFromControl
  | .moveToControl _ _ => some .moveToControl
  | .tlb op => some (.tlb op)
  | .exceptionReturn => some .exceptionReturn
  | .setInterruptEnable value => some (.setInterruptEnable value)
  | .moveFromFloat _ _ => some .moveFromFloat
  | .moveFromFloatControl _ _ => some .moveFromFloatControl
  | .moveToFloat _ _ => some .moveToFloat
  | .moveToFloatControl _ _ => some .moveToFloatControl
  | .floatOp op _ _ _ => some (.floatOp op)
  | .floatMap op _ _ => some (.floatMap op)
  | .floatCompare test _ _ => some (.floatCompare test)
  | .load op _ _ _ => some (.load op)
  | .store op _ _ _ => some (.store op)
  | .loadPart op _ _ _ => some (.loadPart op)
  | .storePart op _ _ _ => some (.storePart op)
  | .loadFloat _ _ _ => some .loadFloat
  | .storeFloat _ _ _ => some .storeFloat

/-! ## Operands -/

/-- An operand of an instruction. Immediates, offsets and jump targets are numbers. -/
inductive Operand where
  | gpr (r : Gpr)
  | control (r : ControlReg)
  | float (r : Fpr)
  | amount (n : UInt8)
  | number (n : UInt32)
  deriving DecidableEq, Repr

/-- The operands, in the order in which the instruction is written. -/
def Instruction.operands : Instruction → List Operand
  | .unknown _ | .syscall | .breakpoint | .hint _ => []
  | .tlb _ | .exceptionReturn | .setInterruptEnable _ => []
  | .shift _ rd rt amount => [.gpr rd, .gpr rt, .amount amount]
  | .shiftBy _ rd rt rs => [.gpr rd, .gpr rt, .gpr rs]
  | .alu _ rd rs rt => [.gpr rd, .gpr rs, .gpr rt]
  | .aluImm _ rt rs imm => [.gpr rt, .gpr rs, .number imm.toUInt32]
  | .loadUpper rt imm => [.gpr rt, .number imm.toUInt32]
  | .moveIf _ rd rs rt => [.gpr rd, .gpr rs, .gpr rt]
  | .moveFromResult _ _ rd => [.gpr rd]
  | .moveToResult _ _ rs => [.gpr rs]
  | .multiply _ _ rd rs rt => [.gpr rd, .gpr rs, .gpr rt]
  | .multiplyAdd _ _ rd rs rt => [.gpr rd, .gpr rs, .gpr rt]
  | .divide _ _ rs rt => [.gpr rs, .gpr rt]
  | .moveFromShiftAmount rd => [.gpr rd]
  | .moveToShiftAmount rs => [.gpr rs]
  | .leadingSigns rd rs => [.gpr rd, .gpr rs]
  | .parallel _ rd rs rt => [.gpr rd, .gpr rs, .gpr rt]
  | .trap _ rs rt => [.gpr rs, .gpr rt]
  | .trapImm _ rs imm => [.gpr rs, .number imm.toUInt32]
  | .jumpRegister rs => [.gpr rs]
  | .jumpLinkRegister rd rs => [.gpr rd, .gpr rs]
  | .jump _ target => [.number target]
  | .branchPair _ _ rs rt offset => [.gpr rs, .gpr rt, .number offset.toUInt32]
  | .branchZero _ _ rs offset => [.gpr rs, .number offset.toUInt32]
  | .branchLink _ _ rs offset => [.gpr rs, .number offset.toUInt32]
  | .branchFloat _ _ offset => [.number offset.toUInt32]
  | .moveFromControl rt cd => [.gpr rt, .control cd]
  | .moveToControl cd rt => [.control cd, .gpr rt]
  | .moveFromFloat rt fs => [.gpr rt, .float fs]
  | .moveFromFloatControl rt fs => [.gpr rt, .float fs]
  | .moveToFloat fs rt => [.float fs, .gpr rt]
  | .moveToFloatControl fs rt => [.float fs, .gpr rt]
  | .floatOp _ fd fs ft => [.float fd, .float fs, .float ft]
  | .floatMap _ fd fs => [.float fd, .float fs]
  | .floatCompare _ fs ft => [.float fs, .float ft]
  | .load _ rt offset base => [.gpr rt, .number offset.toUInt32, .gpr base]
  | .store _ rt offset base => [.gpr rt, .number offset.toUInt32, .gpr base]
  | .loadPart _ rt offset base => [.gpr rt, .number offset.toUInt32, .gpr base]
  | .storePart _ rt offset base => [.gpr rt, .number offset.toUInt32, .gpr base]
  | .loadFloat ft offset base => [.float ft, .number offset.toUInt32, .gpr base]
  | .storeFloat ft offset base => [.float ft, .number offset.toUInt32, .gpr base]

end R5900
