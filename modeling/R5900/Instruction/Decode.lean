import R5900.BitField
import R5900.Instruction.Basic

/-!
# Decoding

`Instruction.decode` reads an instruction from a word. The top six bits choose a row of the primary
table; some rows lead to a second table chosen by a further field. A word that no table lists is
`unknown` and keeps all its bits.
-/

namespace R5900

namespace Encoding

/-- The primary operation field. -/
@[inline] def opcode (w : UInt32) : UInt32 := field32 w 26 6
/-- The field of `rs`, also a selector in the coprocessor tables. -/
@[inline] def rsField (w : UInt32) : UInt32 := field32 w 21 5
/-- The field of `rt`, also a selector in the branch tables. -/
@[inline] def rtField (w : UInt32) : UInt32 := field32 w 16 5
/-- The field of `rd`. -/
@[inline] def rdField (w : UInt32) : UInt32 := field32 w 11 5
/-- The field of the shift amount, also a selector in the parallel tables. -/
@[inline] def saField (w : UInt32) : UInt32 := field32 w 6 5
/-- The function field. -/
@[inline] def function (w : UInt32) : UInt32 := field32 w 0 6

/-- Register `rs`. -/
@[inline] def rs (w : UInt32) : Gpr := .ofField (rsField w)
/-- Register `rt`. -/
@[inline] def rt (w : UInt32) : Gpr := .ofField (rtField w)
/-- Register `rd`. -/
@[inline] def rd (w : UInt32) : Gpr := .ofField (rdField w)
/-- The system control register, in the field of `rd`. -/
@[inline] def cd (w : UInt32) : ControlReg := .ofField (rdField w)
/-- Float register `ft`, in the field of `rt`. -/
@[inline] def ft (w : UInt32) : Fpr := .ofField (rtField w)
/-- Float register `fs`, in the field of `rd`. -/
@[inline] def fs (w : UInt32) : Fpr := .ofField (rdField w)
/-- Float register `fd`, in the field of the shift amount. -/
@[inline] def fd (w : UInt32) : Fpr := .ofField (saField w)
/-- The shift amount. -/
@[inline] def sa (w : UInt32) : UInt8 := (saField w).toUInt8
/-- The immediate or branch offset. -/
@[inline] def imm16 (w : UInt32) : UInt16 := (field32 w 0 16).toUInt16
/-- The jump target, in words. -/
@[inline] def imm26 (w : UInt32) : UInt32 := field32 w 0 26

end Encoding

namespace Instruction

open Encoding

/-- Primary opcode `0x00`, by function. -/
def decodeSpecial (w : UInt32) : Instruction :=
  match function w with
  | 0x00 => .shift .sll (rd w) (rt w) (sa w)
  | 0x02 => .shift .srl (rd w) (rt w) (sa w)
  | 0x03 => .shift .sra (rd w) (rt w) (sa w)
  | 0x04 => .shiftBy .sllv (rd w) (rt w) (rs w)
  | 0x06 => .shiftBy .srlv (rd w) (rt w) (rs w)
  | 0x07 => .shiftBy .srav (rd w) (rt w) (rs w)
  | 0x08 => .jumpRegister (rs w)
  | 0x09 => .jumpLinkRegister (rd w) (rs w)
  | 0x0A => .moveIf true (rd w) (rs w) (rt w)
  | 0x0B => .moveIf false (rd w) (rs w) (rt w)
  | 0x0C => .syscall
  | 0x0D => .breakpoint
  | 0x0F => .hint .sync
  | 0x10 => .moveFromResult .hi .zero (rd w)
  | 0x11 => .moveToResult .hi .zero (rs w)
  | 0x12 => .moveFromResult .lo .zero (rd w)
  | 0x13 => .moveToResult .lo .zero (rs w)
  | 0x14 => .shiftBy .dsllv (rd w) (rt w) (rs w)
  | 0x16 => .shiftBy .dsrlv (rd w) (rt w) (rs w)
  | 0x17 => .shiftBy .dsrav (rd w) (rt w) (rs w)
  | 0x18 => .multiply true .zero (rd w) (rs w) (rt w)
  | 0x19 => .multiply false .zero (rd w) (rs w) (rt w)
  | 0x1A => .divide true .zero (rs w) (rt w)
  | 0x1B => .divide false .zero (rs w) (rt w)
  | 0x20 => .alu .add (rd w) (rs w) (rt w)
  | 0x21 => .alu .addu (rd w) (rs w) (rt w)
  | 0x22 => .alu .sub (rd w) (rs w) (rt w)
  | 0x23 => .alu .subu (rd w) (rs w) (rt w)
  | 0x24 => .alu .and (rd w) (rs w) (rt w)
  | 0x25 => .alu .or (rd w) (rs w) (rt w)
  | 0x26 => .alu .xor (rd w) (rs w) (rt w)
  | 0x27 => .alu .nor (rd w) (rs w) (rt w)
  | 0x28 => .moveFromShiftAmount (rd w)
  | 0x29 => .moveToShiftAmount (rs w)
  | 0x2A => .alu .slt (rd w) (rs w) (rt w)
  | 0x2B => .alu .sltu (rd w) (rs w) (rt w)
  | 0x2C => .alu .dadd (rd w) (rs w) (rt w)
  | 0x2D => .alu .daddu (rd w) (rs w) (rt w)
  | 0x2E => .alu .dsub (rd w) (rs w) (rt w)
  | 0x2F => .alu .dsubu (rd w) (rs w) (rt w)
  | 0x30 => .trap .ge (rs w) (rt w)
  | 0x31 => .trap .geu (rs w) (rt w)
  | 0x32 => .trap .lt (rs w) (rt w)
  | 0x33 => .trap .ltu (rs w) (rt w)
  | 0x34 => .trap .eq (rs w) (rt w)
  | 0x36 => .trap .ne (rs w) (rt w)
  | 0x38 => .shift .dsll (rd w) (rt w) (sa w)
  | 0x3A => .shift .dsrl (rd w) (rt w) (sa w)
  | 0x3B => .shift .dsra (rd w) (rt w) (sa w)
  | 0x3C => .shift .dsll32 (rd w) (rt w) (sa w)
  | 0x3E => .shift .dsrl32 (rd w) (rt w) (sa w)
  | 0x3F => .shift .dsra32 (rd w) (rt w) (sa w)
  | _ => .unknown w

/-- Primary opcode `0x01`, by the field of `rt`. -/
def decodeRegimm (w : UInt32) : Instruction :=
  match rtField w with
  | 0x00 => .branchZero .ltz false (rs w) (imm16 w)
  | 0x01 => .branchZero .gez false (rs w) (imm16 w)
  | 0x02 => .branchZero .ltz true (rs w) (imm16 w)
  | 0x03 => .branchZero .gez true (rs w) (imm16 w)
  | 0x08 => .trapImm .ge (rs w) (imm16 w)
  | 0x09 => .trapImm .geu (rs w) (imm16 w)
  | 0x0A => .trapImm .lt (rs w) (imm16 w)
  | 0x0B => .trapImm .ltu (rs w) (imm16 w)
  | 0x0C => .trapImm .eq (rs w) (imm16 w)
  | 0x0E => .trapImm .ne (rs w) (imm16 w)
  | 0x10 => .branchLink .ltz false (rs w) (imm16 w)
  | 0x11 => .branchLink .gez false (rs w) (imm16 w)
  | 0x12 => .branchLink .ltz true (rs w) (imm16 w)
  | 0x13 => .branchLink .gez true (rs w) (imm16 w)
  | _ => .unknown w

/-- Primary opcode `0x10`, system control, by the field of `rs` and then by function. -/
def decodeControl (w : UInt32) : Instruction :=
  match rsField w with
  | 0x00 => .moveFromControl (rt w) (cd w)
  | 0x04 => .moveToControl (cd w) (rt w)
  | 0x10 =>
    match function w with
    | 0x01 => .tlb .read
    | 0x02 => .tlb .writeIndexed
    | 0x06 => .tlb .writeRandom
    | 0x08 => .tlb .probe
    | 0x18 => .exceptionReturn
    | 0x38 => .setInterruptEnable true
    | 0x39 => .setInterruptEnable false
    | _ => .unknown w
  | _ => .unknown w

/-- Primary opcode `0x11`, the float unit, by the field of `rs` and then by a second field. -/
def decodeFloat (w : UInt32) : Instruction :=
  match rsField w with
  | 0x00 => .moveFromFloat (rt w) (fs w)
  | 0x02 => .moveFromFloatControl (rt w) (fs w)
  | 0x04 => .moveToFloat (fs w) (rt w)
  | 0x06 => .moveToFloatControl (fs w) (rt w)
  | 0x08 =>
    match rtField w with
    | 0x00 => .branchFloat false false (imm16 w)
    | 0x01 => .branchFloat true false (imm16 w)
    | 0x02 => .branchFloat false true (imm16 w)
    | 0x03 => .branchFloat true true (imm16 w)
    | _ => .unknown w
  | 0x10 =>
    match function w with
    | 0x00 => .floatOp .add (fd w) (fs w) (ft w)
    | 0x01 => .floatOp .sub (fd w) (fs w) (ft w)
    | 0x02 => .floatOp .mul (fd w) (fs w) (ft w)
    | 0x03 => .floatOp .div (fd w) (fs w) (ft w)
    | 0x05 => .floatMap .abs (fd w) (fs w)
    | 0x06 => .floatMap .mov (fd w) (fs w)
    | 0x07 => .floatMap .neg (fd w) (fs w)
    | 0x24 => .floatMap .toWord (fd w) (fs w)
    | 0x32 => .floatCompare .eq (fs w) (ft w)
    | 0x34 => .floatCompare .lt (fs w) (ft w)
    | 0x36 => .floatCompare .le (fs w) (ft w)
    | _ => .unknown w
  | 0x14 =>
    match function w with
    | 0x20 => .floatMap .ofWord (fd w) (fs w)
    | _ => .unknown w
  | _ => .unknown w

/-- Primary opcode `0x1C`, by function and in two rows by the field of the shift amount. -/
def decodeMultimedia (w : UInt32) : Instruction :=
  match function w with
  | 0x00 => .multiplyAdd true .zero (rd w) (rs w) (rt w)
  | 0x01 => .multiplyAdd false .zero (rd w) (rs w) (rt w)
  | 0x04 => .leadingSigns (rd w) (rs w)
  | 0x09 =>
    match saField w with
    | 0x0E => .parallel .pcpyld (rd w) (rs w) (rt w)
    | 0x12 => .parallel .pand (rd w) (rs w) (rt w)
    | 0x13 => .parallel .pxor (rd w) (rs w) (rt w)
    | _ => .unknown w
  | 0x10 => .moveFromResult .hi .one (rd w)
  | 0x11 => .moveToResult .hi .one (rs w)
  | 0x12 => .moveFromResult .lo .one (rd w)
  | 0x13 => .moveToResult .lo .one (rs w)
  | 0x18 => .multiply true .one (rd w) (rs w) (rt w)
  | 0x19 => .multiply false .one (rd w) (rs w) (rt w)
  | 0x1A => .divide true .one (rs w) (rt w)
  | 0x1B => .divide false .one (rs w) (rt w)
  | 0x20 => .multiplyAdd true .one (rd w) (rs w) (rt w)
  | 0x21 => .multiplyAdd false .one (rd w) (rs w) (rt w)
  | 0x29 =>
    match saField w with
    | 0x0E => .parallel .pcpyud (rd w) (rs w) (rt w)
    | 0x12 => .parallel .por (rd w) (rs w) (rt w)
    | 0x13 => .parallel .pnor (rd w) (rs w) (rt w)
    | _ => .unknown w
  | _ => .unknown w

/-- The instruction a word encodes. -/
def decode (w : UInt32) : Instruction :=
  match opcode w with
  | 0x00 => decodeSpecial w
  | 0x01 => decodeRegimm w
  | 0x02 => .jump false (imm26 w)
  | 0x03 => .jump true (imm26 w)
  | 0x04 => .branchPair .eq false (rs w) (rt w) (imm16 w)
  | 0x05 => .branchPair .ne false (rs w) (rt w) (imm16 w)
  | 0x06 => .branchZero .lez false (rs w) (imm16 w)
  | 0x07 => .branchZero .gtz false (rs w) (imm16 w)
  | 0x08 => .aluImm .addi (rt w) (rs w) (imm16 w)
  | 0x09 => .aluImm .addiu (rt w) (rs w) (imm16 w)
  | 0x0A => .aluImm .slti (rt w) (rs w) (imm16 w)
  | 0x0B => .aluImm .sltiu (rt w) (rs w) (imm16 w)
  | 0x0C => .aluImm .andi (rt w) (rs w) (imm16 w)
  | 0x0D => .aluImm .ori (rt w) (rs w) (imm16 w)
  | 0x0E => .aluImm .xori (rt w) (rs w) (imm16 w)
  | 0x0F => .loadUpper (rt w) (imm16 w)
  | 0x10 => decodeControl w
  | 0x11 => decodeFloat w
  | 0x14 => .branchPair .eq true (rs w) (rt w) (imm16 w)
  | 0x15 => .branchPair .ne true (rs w) (rt w) (imm16 w)
  | 0x16 => .branchZero .lez true (rs w) (imm16 w)
  | 0x17 => .branchZero .gtz true (rs w) (imm16 w)
  | 0x18 => .aluImm .daddi (rt w) (rs w) (imm16 w)
  | 0x19 => .aluImm .daddiu (rt w) (rs w) (imm16 w)
  | 0x1A => .loadPart .ldl (rt w) (imm16 w) (rs w)
  | 0x1B => .loadPart .ldr (rt w) (imm16 w) (rs w)
  | 0x1C => decodeMultimedia w
  | 0x1E => .load .lq (rt w) (imm16 w) (rs w)
  | 0x1F => .store .sq (rt w) (imm16 w) (rs w)
  | 0x20 => .load .lb (rt w) (imm16 w) (rs w)
  | 0x21 => .load .lh (rt w) (imm16 w) (rs w)
  | 0x22 => .loadPart .lwl (rt w) (imm16 w) (rs w)
  | 0x23 => .load .lw (rt w) (imm16 w) (rs w)
  | 0x24 => .load .lbu (rt w) (imm16 w) (rs w)
  | 0x25 => .load .lhu (rt w) (imm16 w) (rs w)
  | 0x26 => .loadPart .lwr (rt w) (imm16 w) (rs w)
  | 0x27 => .load .lwu (rt w) (imm16 w) (rs w)
  | 0x28 => .store .sb (rt w) (imm16 w) (rs w)
  | 0x29 => .store .sh (rt w) (imm16 w) (rs w)
  | 0x2A => .storePart .swl (rt w) (imm16 w) (rs w)
  | 0x2B => .store .sw (rt w) (imm16 w) (rs w)
  | 0x2C => .storePart .sdl (rt w) (imm16 w) (rs w)
  | 0x2D => .storePart .sdr (rt w) (imm16 w) (rs w)
  | 0x2E => .storePart .swr (rt w) (imm16 w) (rs w)
  | 0x2F => .hint .cache
  | 0x31 => .loadFloat (ft w) (imm16 w) (rs w)
  | 0x33 => .hint .pref
  | 0x37 => .load .ld (rt w) (imm16 w) (rs w)
  | 0x39 => .storeFloat (ft w) (imm16 w) (rs w)
  | 0x3F => .store .sd (rt w) (imm16 w) (rs w)
  | _ => .unknown w

end Instruction

end R5900
