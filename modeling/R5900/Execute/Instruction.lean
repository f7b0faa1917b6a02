import R5900.Execute.Operation
import R5900.Instruction.Target
import R5900.Instruction.Text
import R5900.Machine

/-!
# Executing one instruction

`Instruction.execute` is the action of an instruction at an address; its value is the address of the
next instruction. A taken branch leaves the next address at the delay slot and is remembered by the
core; a likely branch that is not taken skips its delay slot.

Loads and stores other than the partial ones check alignment before they access anything, so an
instruction that raises an exception has changed nothing.
-/

namespace R5900

namespace Exec

/-- The sum of a base register and a signed offset. -/
@[inline] def effectiveAddress (base : Gpr) (offset : UInt16) : Exec UInt32 :=
  ofCore fun c => c.word base + signExtend16To32 offset

/-- Whether an address is a multiple of a width. -/
@[inline] def isAligned (w : Width) (address : UInt32) : Bool :=
  address &&& (UInt32.ofNat w.bytes - 1) = 0

/-- Load a value from an aligned address. -/
@[inline] def loadAligned (w : Width) (base : Gpr) (offset : UInt16) : Exec w.Value := do
  let address ← effectiveAddress base offset
  if isAligned w address then Machine.read w address else raise (.addressErrorLoad address)

/-- Store a value at an aligned address. -/
@[inline] def storeAligned (w : Width) (base : Gpr) (offset : UInt16) (value : w.Value) :
    Exec Unit := do
  let address ← effectiveAddress base offset
  if isAligned w address then Machine.write w address value else raise (.addressErrorStore address)

/-- Take a branch or not; the value is the address of the next instruction. -/
@[inline] def branch (pc : UInt32) (taken likely : Bool) (target : UInt32) : Exec UInt32 := do
  if taken then
    onCore (·.branchTo target)
    return pc + 4
  else return if likely then pc + 8 else pc + 4

/-- Raise a trap if a comparison holds. -/
@[inline] def trapIf (condition : Bool) : Exec Unit := if condition then raise .trap else pure ()

/-- Write a doubleword that may fault to a general register. -/
@[inline] def setChecked (rd : Gpr) (value : Except Fault UInt64) : Exec Unit := do
  let v ← ofChecked value
  onCore (·.setDouble rd v)

/-- Write a doubleword as the multiply result of a pipeline, and its low word to a register. -/
@[inline] def setProduct (pipe : Pipeline) (rd : Gpr) (value : UInt64) : Exec Unit :=
  onCore fun c =>
    (c.setResultWords pipe (value >>> (32 : UInt64)).toUInt32 value.toUInt32).setWord rd
      value.toUInt32

/-- Load the part of a word or doubleword on one side of an address into a register. -/
def loadPart (op : PartLoadOp) (rt : Gpr) (address : UInt32) : Exec Unit :=
  match op with
  | .lwl => do
    let memory ← Machine.read .word (address &&& ~~~3)
    onCore fun c => c.setWord rt (placeAbove32 (c.word rt) memory (24 - 8 * (address &&& 3)))
  | .lwr => do
    let memory ← Machine.read .word (address &&& ~~~3)
    onCore fun c =>
      let value := placeBelow32 (c.word rt) memory (8 * (address &&& 3))
      if address &&& 3 = 0 then c.setWord rt value
      else c.setDouble rt (c.double rt &&& 0xFFFFFFFF00000000 ||| value.toUInt64)
  | .ldl => do
    let memory ← Machine.read .double (address &&& ~~~7)
    onCore fun c =>
      c.setDouble rt (placeAbove64 (c.double rt) memory (56 - 8 * (address &&& 7).toUInt64))
  | .ldr => do
    let memory ← Machine.read .double (address &&& ~~~7)
    onCore fun c =>
      c.setDouble rt (placeBelow64 (c.double rt) memory (8 * (address &&& 7).toUInt64))

/-- Store the part of a register on one side of an address in its word or doubleword, by reading
that, replacing the part and writing it back. -/
def storePart (op : PartStoreOp) (rt : Gpr) (address : UInt32) : Exec Unit :=
  match op with
  | .swl => do
    let memory ← Machine.read .word (address &&& ~~~3)
    let value ← ofCore (·.word rt)
    Machine.write .word (address &&& ~~~3)
      (placeBelow32 memory value (24 - 8 * (address &&& 3)))
  | .swr => do
    let memory ← Machine.read .word (address &&& ~~~3)
    let value ← ofCore (·.word rt)
    Machine.write .word (address &&& ~~~3) (placeAbove32 memory value (8 * (address &&& 3)))
  | .sdl => do
    let memory ← Machine.read .double (address &&& ~~~7)
    let value ← ofCore (·.double rt)
    Machine.write .double (address &&& ~~~7)
      (placeBelow64 memory value (56 - 8 * (address &&& 7).toUInt64))
  | .sdr => do
    let memory ← Machine.read .double (address &&& ~~~7)
    let value ← ofCore (·.double rt)
    Machine.write .double (address &&& ~~~7)
      (placeAbove64 memory value (8 * (address &&& 7).toUInt64))

end Exec

namespace Instruction

open Exec

/-- The report of a word that encodes nothing. -/
def unknownNote (word pc : UInt32) : Note :=
  ⟨.warn, fun _ => "Unknown instruction " ++ Text.address word ++ " at " ++ Text.address pc⟩

/-- The report of an instruction on the lookaside buffer. -/
def tlbNote (op : TlbOp) (pc : UInt32) : Note :=
  ⟨.debug, fun _ => "Ignoring " ++ op.mnemonic ++ " at " ++ Text.address pc⟩

/-- The report of a write to a control register. -/
def controlNote (r : ControlReg) (value : UInt32) : Note :=
  ⟨.debug, fun _ => "Setting control register " ++ r.name ++ " to " ++ Text.address value⟩

/-- The action of an instruction at `pc`; its value is the address of the next instruction. -/
def execute (i : Instruction) (pc : UInt32) : Exec UInt32 :=
  match i with
  | .unknown word => do
    note (unknownNote word pc)
    return pc + 4
  | .shift op rd rt amount => do
    setChecked rd (op.eval (← ofCore (·.double rt)) amount)
    return pc + 4
  | .shiftBy op rd rt rs => do
    setChecked rd (op.eval (← ofCore (·.double rt)) (← ofCore (·.word rs)))
    return pc + 4
  | .alu op rd rs rt => do
    onCore fun c => c.setDouble rd (op.eval (c.double rs) (c.double rt))
    return pc + 4
  | .aluImm op rt rs imm => do
    onCore fun c => c.setDouble rt (op.eval (c.double rs) imm)
    return pc + 4
  | .loadUpper rt imm => do
    onCore (·.setWord rt (imm.toUInt32 <<< (16 : UInt32)))
    return pc + 4
  | .moveIf isZero rd rs rt => do
    onCore fun c => if (c.double rt == 0) == isZero then c.setDouble rd (c.double rs) else c
    return pc + 4
  | .moveFromResult half pipe rd => do
    onCore fun c => c.setDouble rd (pipe.part (c.result half))
    return pc + 4
  | .moveToResult half pipe rs => do
    onCore fun c => c.setResult half pipe (c.double rs)
    return pc + 4
  | .multiply signed pipe rd rs rt => do
    let value ← ofChecked (product signed (← ofCore (·.word rs)) (← ofCore (·.word rt)))
    setProduct pipe rd value
    return pc + 4
  | .multiplyAdd signed pipe rd rs rt => do
    let value ← ofChecked (product signed (← ofCore (·.word rs)) (← ofCore (·.word rt)))
    setProduct pipe rd ((← ofCore (·.accumulator pipe)) + value)
    return pc + 4
  | .divide signed pipe rs rt => do
    let (q, r) ← ofChecked (quotient signed (← ofCore (·.word rs)) (← ofCore (·.word rt)))
    onCore (·.setResultWords pipe r q)
    return pc + 4
  | .moveFromShiftAmount rd => do
    onCore fun c => c.setDouble rd c.shiftAmount.toUInt64
    return pc + 4
  | .moveToShiftAmount rs => do
    onCore fun c => { c with shiftAmount := c.word rs }
    return pc + 4
  | .leadingSigns rd rs => do
    setChecked rd (leadingSignsOf (← ofCore (·.double rs)))
    return pc + 4
  | .parallel op rd rs rt => do
    onCore fun c => c.setQuad rd (op.eval (c.quad rs) (c.quad rt))
    return pc + 4
  | .syscall => raise .syscall
  | .breakpoint => raise .breakpoint
  | .hint _ => return pc + 4
  | .trap test rs rt => do
    trapIf (test.holds (← ofCore (·.double rs)) (← ofCore (·.double rt)))
    return pc + 4
  | .trapImm test rs imm => do
    trapIf (test.holds (← ofCore (·.double rs)) (signExtend16 imm))
    return pc + 4
  | .jumpRegister rs => do
    branch pc true false (← ofCore (·.word rs))
  | .jumpLinkRegister rd rs => do
    let target ← ofCore (·.word rs)
    onCore (·.setWord rd (pc + 8))
    branch pc true false target
  | .jump link target => do
    if link then onCore (·.setWord .ra (pc + 8))
    branch pc true false (absoluteTarget pc target)
  | .branchPair test likely rs rt offset => do
    let taken := test.holds (← ofCore (·.double rs)) (← ofCore (·.double rt))
    branch pc taken likely (relativeTarget pc offset)
  | .branchZero test likely rs offset => do
    let taken := test.holds (← ofCore (·.double rs))
    branch pc taken likely (relativeTarget pc offset)
  | .branchLink test likely rs offset => do
    let taken := test.zeroTest.holds (← ofCore (·.double rs))
    onCore (·.setWord .ra (pc + 8))
    branch pc taken likely (relativeTarget pc offset)
  | .branchFloat condition likely offset => do
    let taken := (← ofCore (·.float.condition)) == condition
    branch pc taken likely (relativeTarget pc offset)
  | .moveFromControl rt cd => do
    onCore fun c => c.setWord rt (c.control.get cd)
    return pc + 4
  | .moveToControl cd rt => do
    let value ← ofCore (·.word rt)
    note (controlNote cd value)
    onCore fun c => { c with control := c.control.write cd value }
    return pc + 4
  | .tlb op => do
    note (tlbNote op pc)
    return pc + 4
  | .exceptionReturn => do
    let (target, control) ← ofCore (·.control.exceptionReturn)
    onCore fun c => { c with control := control }
    return target
  | .setInterruptEnable value => do
    onCore fun c =>
      { c with control := c.control.setStatus (c.control.status.setMasterEnable value) }
    return pc + 4
  | .moveFromFloat rt fs => do
    onCore fun c => c.setWord rt (c.float.get fs)
    return pc + 4
  | .moveFromFloatControl rt fs => do
    onCore fun c => c.setWord rt (c.float.getControl fs)
    return pc + 4
  | .moveToFloat fs rt => do
    onCore fun c => { c with float := c.float.put fs (c.word rt) }
    return pc + 4
  | .moveToFloatControl fs rt => do
    onCore fun c => { c with float := c.float.setControl fs (c.word rt) }
    return pc + 4
  | .floatOp op fd fs ft => do
    onCore fun c => { c with float := c.float.put fd (op.eval (c.float.get fs) (c.float.get ft)) }
    return pc + 4
  | .floatMap op fd fs => do
    onCore fun c => { c with float := c.float.put fd (op.eval (c.float.get fs)) }
    return pc + 4
  | .floatCompare test fs ft => do
    onCore fun c =>
      { c with float := c.float.setCondition (test.eval (c.float.get fs) (c.float.get ft)) }
    return pc + 4
  | .load op rt offset base => do
    let value ← loadAligned op.width base offset
    onCore fun c => c.setQuad rt (op.extend value (c.quad rt))
    return pc + 4
  | .store op rt offset base => do
    let value ← ofCore fun c => op.width.ofQuad (c.quad rt)
    storeAligned op.width base offset value
    return pc + 4
  | .loadPart op rt offset base => do
    Exec.loadPart op rt (← effectiveAddress base offset)
    return pc + 4
  | .storePart op rt offset base => do
    Exec.storePart op rt (← effectiveAddress base offset)
    return pc + 4
  | .loadFloat ft offset base => do
    let value ← loadAligned .word base offset
    onCore fun c => { c with float := c.float.put ft value }
    return pc + 4
  | .storeFloat ft offset base => do
    let value ← ofCore (·.float.get ft)
    storeAligned .word base offset value
    return pc + 4

/-- Execute an instruction where the core is and move on to the next one. -/
def interpret (i : Instruction) : Exec Unit := do
  let next ← i.execute (← ofCore (·.pc))
  onCore fun c => { c with pc := next }

end Instruction

end R5900
