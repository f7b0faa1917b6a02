/-!
# Sign extension

Each function widens a word and fills the new bits with its sign bit. The main statement for each is
that it is `BitVec.signExtend` on the bits.
-/

namespace R5900

/-- A byte as a doubleword of the same signed value. -/
@[inline] def signExtend8 (x : UInt8) : UInt64 := x.toInt8.toInt64.toUInt64

/-- A halfword as a word of the same signed value. -/
@[inline] def signExtend16To32 (x : UInt16) : UInt32 := x.toInt16.toInt32.toUInt32

/-- A halfword as a doubleword of the same signed value. -/
@[inline] def signExtend16 (x : UInt16) : UInt64 := x.toInt16.toInt64.toUInt64

/-- A word as a doubleword of the same signed value. -/
@[inline] def signExtend32 (x : UInt32) : UInt64 := x.toInt32.toInt64.toUInt64

@[simp] theorem toBitVec_signExtend8 (x : UInt8) :
    (signExtend8 x).toBitVec = x.toBitVec.signExtend 64 := rfl

@[simp] theorem toBitVec_signExtend16To32 (x : UInt16) :
    (signExtend16To32 x).toBitVec = x.toBitVec.signExtend 32 := rfl

@[simp] theorem toBitVec_signExtend16 (x : UInt16) :
    (signExtend16 x).toBitVec = x.toBitVec.signExtend 64 := rfl

@[simp] theorem toBitVec_signExtend32 (x : UInt32) :
    (signExtend32 x).toBitVec = x.toBitVec.signExtend 64 := rfl

end R5900
