import R5900.BitField
import R5900.Core
import R5900.Fault
import R5900.Instruction.Basic
import R5900.Word.SignExtend
import R5900.Word.Width

/-!
# What the operations compute

The value of each operation on the values of its operands, apart from any machine. Results of word
operations are sign-extended to a doubleword. Shifts, divisions and products are checked: they fault
where a result is expected to fit and does not.
-/

namespace R5900

/-- A truth value as a doubleword. -/
@[inline] def truthWord (b : Bool) : UInt64 := if b then 1 else 0

/-- An integer operation on two doublewords. Sums and differences wrap. -/
def AluOp.eval (op : AluOp) (a b : UInt64) : UInt64 :=
  match op with
  | .add | .addu => signExtend32 (a.toUInt32 + b.toUInt32)
  | .sub | .subu => signExtend32 (a.toUInt32 - b.toUInt32)
  | .and => a &&& b
  | .or => a ||| b
  | .xor => a ^^^ b
  | .nor => ~~~(a ||| b)
  | .slt => truthWord (a.toInt64 < b.toInt64)
  | .sltu => truthWord (a < b)
  | .dadd | .daddu => a + b
  | .dsub | .dsubu => a - b

/-- An integer operation on a doubleword and an immediate, which is sign-extended by the arithmetic
and comparing operations and zero-extended by the logical ones. -/
def ImmOp.eval (op : ImmOp) (a : UInt64) (imm : UInt16) : UInt64 :=
  match op with
  | .addi | .addiu => signExtend32 (a.toUInt32 + signExtend16To32 imm)
  | .slti => truthWord (a.toInt64 < (signExtend16 imm).toInt64)
  | .sltiu => truthWord (a < signExtend16 imm)
  | .andi => a &&& imm.toUInt64
  | .ori => a ||| imm.toUInt64
  | .xori => a ^^^ imm.toUInt64
  | .daddi | .daddiu => a + signExtend16 imm

/-- A shift of a doubleword by a constant amount. -/
def ShiftOp.eval (op : ShiftOp) (a : UInt64) (amount : UInt8) : Except Fault UInt64 :=
  match op with
  | .sll => signExtend32 <$> Checked.shiftLeft32 a.toUInt32 amount.toUInt32
  | .srl => signExtend32 <$> Checked.shiftRight32 a.toUInt32 amount.toUInt32
  | .sra => signExtend32 <$> Checked.shiftRightSigned32 a.toUInt32 amount.toUInt32
  | .dsll => Checked.shiftLeft64 a amount.toUInt64
  | .dsrl => Checked.shiftRight64 a amount.toUInt64
  | .dsra => Checked.shiftRightSigned64 a amount.toUInt64
  | .dsll32 => do Checked.shiftLeft64 a (← Checked.add8 amount 32).toUInt64
  | .dsrl32 => do Checked.shiftRight64 a (← Checked.add8 amount 32).toUInt64
  | .dsra32 => do Checked.shiftRightSigned64 a (← Checked.add8 amount 32).toUInt64

/-- A shift of a doubleword by the low bits of a word: five of them for word shifts, six for
doubleword shifts. -/
def VarShiftOp.eval (op : VarShiftOp) (a : UInt64) (amount : UInt32) : Except Fault UInt64 :=
  match op with
  | .sllv => signExtend32 <$> Checked.shiftLeft32 a.toUInt32 (field32 amount 0 5)
  | .srlv => signExtend32 <$> Checked.shiftRight32 a.toUInt32 (field32 amount 0 5)
  | .srav => signExtend32 <$> Checked.shiftRightSigned32 a.toUInt32 (field32 amount 0 5)
  | .dsllv => Checked.shiftLeft64 a (field32 amount 0 6).toUInt64
  | .dsrlv => Checked.shiftRight64 a (field32 amount 0 6).toUInt64
  | .dsrav => Checked.shiftRightSigned64 a (field32 amount 0 6).toUInt64

/-- Whether a trap's comparison holds. -/
def TrapTest.holds (test : TrapTest) (a b : UInt64) : Bool :=
  match test with
  | .ge => b.toInt64 ≤ a.toInt64
  | .geu => b ≤ a
  | .lt => a.toInt64 < b.toInt64
  | .ltu => a < b
  | .eq => a = b
  | .ne => a != b

/-- Whether a branch's comparison of two registers holds. -/
def PairTest.holds (test : PairTest) (a b : UInt64) : Bool :=
  match test with
  | .eq => a = b
  | .ne => a != b

/-- Whether a branch's comparison with zero holds. -/
def ZeroTest.holds (test : ZeroTest) (a : UInt64) : Bool :=
  match test with
  | .lez => a.toInt64 ≤ 0
  | .gtz => 0 < a.toInt64
  | .ltz => a.toInt64 < 0
  | .gez => 0 ≤ a.toInt64

/-- The doubleword product of two words. -/
def product (signed : Bool) (a b : UInt32) : Except Fault UInt64 :=
  if signed then Int64.toUInt64 <$> Checked.mulSigned64 a.toInt32.toInt64 b.toInt32.toInt64
  else Checked.mul64 a.toUInt64 b.toUInt64

/-- Quotient and remainder of signed words. Division by zero gives minus the sign of the dividend
and the dividend; the one quotient that does not fit is the least word. -/
def quotientSigned (n d : UInt32) : Except Fault (UInt32 × UInt32) :=
  let dividend := n.toInt32
  let divisor := d.toInt32
  if divisor = 0 then .ok (if dividend < 0 then 1 else 0xFFFFFFFF, n)
  else if dividend = Int32.minValue ∧ divisor = -1 then .ok (0x80000000, 0)
  else do
    let (q, r) ← Checked.divModSigned32 dividend divisor
    return (q.toUInt32, r.toUInt32)

/-- Quotient and remainder of unsigned words. Division by zero gives the greatest word and the
dividend. -/
def quotientUnsigned (n d : UInt32) : Except Fault (UInt32 × UInt32) :=
  if d = 0 then .ok (0xFFFFFFFF, n) else Checked.divMod32 n d

/-- Quotient and remainder of two words. -/
def quotient (signed : Bool) (n d : UInt32) : Except Fault (UInt32 × UInt32) :=
  if signed then quotientSigned n d else quotientUnsigned n d

/-- How many bits of a word are clear above the highest one that is set. -/
def leadingZeros (x : UInt32) : UInt64 := if x = 0 then 32 else 31 - x.log2.toUInt64

/-- How many bits below the sign bit of a word repeat it. -/
def signRepeats (x : UInt32) : Except Fault UInt64 :=
  Checked.sub64 (leadingZeros (if testBit32 x 31 then ~~~x else x)) 1

/-- The sign repetitions of both words of a doubleword, each in its place. -/
def leadingSignsOf (a : UInt64) : Except Fault UInt64 := do
  let high ← signRepeats (a >>> (32 : UInt64)).toUInt32
  let low ← signRepeats a.toUInt32
  return high <<< (32 : UInt64) ||| low

/-- An operation on two quadwords. -/
def ParallelOp.eval (op : ParallelOp) (a b : Quad) : Quad :=
  match op with
  | .pcpyld => ⟨b.lo, a.lo⟩
  | .pcpyud => ⟨a.hi, b.hi⟩
  | .pand => a.and b
  | .por => a.or b
  | .pxor => a.xor b
  | .pnor => (a.or b).not

/-- The width of a load. -/
def LoadOp.width : LoadOp → Width
  | .lb | .lbu => .byte
  | .lh | .lhu => .half
  | .lw | .lwu => .word
  | .ld => .double
  | .lq => .quad

/-- The register after a load, from the value loaded and the register before. -/
def LoadOp.extend (op : LoadOp) (value : op.width.Value) (old : Quad) : Quad :=
  match op, value with
  | .lb, v => old.withLow (signExtend8 v)
  | .lbu, v => old.withLow (UInt8.toUInt64 v)
  | .lh, v => old.withLow (signExtend16 v)
  | .lhu, v => old.withLow (UInt16.toUInt64 v)
  | .lw, v => old.withLow (signExtend32 v)
  | .lwu, v => old.withLow (UInt32.toUInt64 v)
  | .ld, v => old.withLow v
  | .lq, v => v

/-- The width of a store. -/
def StoreOp.width : StoreOp → Width
  | .sb => .byte
  | .sh => .half
  | .sw => .word
  | .sd => .double
  | .sq => .quad

/-- Keep the low `amount` bits of a word and put another word above them. -/
@[inline] def placeAbove32 (old new amount : UInt32) : UInt32 :=
  old &&& ((1 <<< amount) - 1) ||| new <<< amount

/-- Keep the high `amount` bits of a word and put another word, moved down, below them. -/
@[inline] def placeBelow32 (old new amount : UInt32) : UInt32 :=
  old &&& ~~~((0xFFFFFFFF : UInt32) >>> amount) ||| new >>> amount

/-- Keep the low `amount` bits of a doubleword and put another one above them. -/
@[inline] def placeAbove64 (old new amount : UInt64) : UInt64 :=
  old &&& ((1 <<< amount) - 1) ||| new <<< amount

/-- Keep the high `amount` bits of a doubleword and put another one, moved down, below them. -/
@[inline] def placeBelow64 (old new amount : UInt64) : UInt64 :=
  old &&& ~~~((0xFFFFFFFFFFFFFFFF : UInt64) >>> amount) ||| new >>> amount

end R5900
