import R5900.Word.SignExtend
import R5900.Instruction.Basic

/-!
# Static targets and no-operations

Where a branch or jump goes, as far as the instruction and its address tell, and which instructions
a listing marks as doing nothing. Address arithmetic wraps.
-/

namespace R5900

/-- The target of a branch at `address`: the delay slot plus four times the signed offset. -/
def relativeTarget (address : UInt32) (offset : UInt16) : UInt32 :=
  address + 4 + (signExtend16To32 offset <<< (2 : UInt32))

/-- The target of a jump at `address`: four times `target`, in the 256 MiB region of the delay
slot. -/
def absoluteTarget (address target : UInt32) : UInt32 :=
  ((address + 4) &&& 0xF0000000) ||| (target <<< (2 : UInt32))

namespace Instruction

/-- The target of a branch or jump at `address`; none for a jump through a register and for every
other instruction. -/
def target? (address : UInt32) : Instruction → Option UInt32
  | .branchPair _ _ _ _ offset => some (relativeTarget address offset)
  | .branchZero _ _ _ offset => some (relativeTarget address offset)
  | .branchLink _ _ _ offset => some (relativeTarget address offset)
  | .branchFloat _ _ offset => some (relativeTarget address offset)
  | .jump _ target => some (absoluteTarget address target)
  | _ => none

/-- Whether a listing marks the instruction as doing nothing: a left shift into the zero register,
or adding or joining zero to a register in place. -/
def isNop : Instruction → Bool
  | .shift .sll rd _ _ => rd = Gpr.zero
  | .aluImm .addiu rt rs imm => imm = 0 && rt = rs
  | .aluImm .ori rt rs imm => imm = 0 && rt = rs
  | _ => false

end Instruction

end R5900
