import R5900.Execute.Operation
import R5900.Proofs.BitField

/-!
# Sign-extended words

Doublewords that are the sign extension of their low word. They are closed under the bitwise
operations, and they compare as their low words do, signed and unsigned: sign extension keeps
equality and both orders.
-/

namespace R5900

/-- The doubleword is the sign extension of its low word. -/
def SignExtended (x : UInt64) : Prop := signExtend32 x.toUInt32 = x

instance (x : UInt64) : Decidable (SignExtended x) := inferInstanceAs (Decidable (_ = _))

/-! ## Sign extension of words -/

@[simp] theorem toUInt32_signExtend32 (w : UInt32) : (signExtend32 w).toUInt32 = w := by
  apply UInt32.toBitVec_inj.1
  rw [UInt64.toBitVec_toUInt32, toBitVec_signExtend32]
  ext i hi
  rw [BitVec.getElem_setWidth, BitVec.getLsbD_signExtend, if_pos hi,
    decide_eq_true (Nat.lt_trans hi (by decide)), Bool.true_and]
  rfl

theorem signExtended_signExtend32 (w : UInt32) : SignExtended (signExtend32 w) := by
  rw [SignExtended, toUInt32_signExtend32]

theorem toInt_signExtend32 (w : UInt32) : (signExtend32 w).toInt64.toInt = w.toInt32.toInt := by
  show (w.toBitVec.signExtend 64).toInt = w.toBitVec.toInt
  exact BitVec.toInt_signExtend_of_le (by decide)

/-- The unsigned number of a sign extension. -/
theorem toNat_signExtend32 (w : UInt32) : (signExtend32 w).toNat =
    if w.toNat < 2 ^ 31 then w.toNat else w.toNat + (2 ^ 64 - 2 ^ 32) := by
  have hint := toInt_signExtend32 w
  have hw := w.toNat_lt
  have hx := (signExtend32 w).toNat_lt
  have h32 : w.toInt32.toInt = if 2 * w.toNat < 2 ^ 32 then (w.toNat : Int) else w.toNat - 2 ^ 32 :=
    BitVec.toInt_eq_toNat_cond w.toBitVec
  have h64 : (signExtend32 w).toInt64.toInt = if 2 * (signExtend32 w).toNat < 2 ^ 64 then
      ((signExtend32 w).toNat : Int) else (signExtend32 w).toNat - 2 ^ 64 :=
    BitVec.toInt_eq_toNat_cond (signExtend32 w).toBitVec
  rw [h32, h64] at hint
  split at hint <;> split at hint <;> split <;> omega

theorem signExtend32_and (v w : UInt32) :
    signExtend32 (v &&& w) = signExtend32 v &&& signExtend32 w :=
  UInt64.toBitVec_inj.1 BitVec.signExtend_and

theorem signExtend32_or (v w : UInt32) :
    signExtend32 (v ||| w) = signExtend32 v ||| signExtend32 w :=
  UInt64.toBitVec_inj.1 BitVec.signExtend_or

theorem signExtend32_xor (v w : UInt32) :
    signExtend32 (v ^^^ w) = signExtend32 v ^^^ signExtend32 w :=
  UInt64.toBitVec_inj.1 BitVec.signExtend_xor

theorem signExtend32_not (w : UInt32) : signExtend32 (~~~w) = ~~~signExtend32 w :=
  UInt64.toBitVec_inj.1 (BitVec.signExtend_not (by decide))

theorem signExtend8_eq (x : UInt8) : signExtend8 x = signExtend32 x.toInt8.toInt32.toUInt32 := by
  simp [signExtend8, signExtend32]

/-- Widening a halfword in two steps is widening it in one. -/
theorem signExtend16_eq (x : UInt16) : signExtend16 x = signExtend32 (signExtend16To32 x) := by
  simp [signExtend16, signExtend32, signExtend16To32]

/-- A doubleword below half the words is the sign extension of its low word. -/
theorem signExtended_of_lt {x : UInt64} (h : x.toNat < 2 ^ 31) : SignExtended x := by
  have hlow : x.toUInt32.toNat = x.toNat := by
    rw [UInt64.toNat_toUInt32]
    exact Nat.mod_eq_of_lt (Nat.lt_trans h (by decide))
  apply UInt64.toNat_inj.1
  rw [toNat_signExtend32, hlow, if_pos h]

/-! ## Closure -/

theorem signExtended_zero : SignExtended 0 := rfl

theorem signExtended_truthWord (b : Bool) : SignExtended (truthWord b) := by
  cases b <;> rfl

theorem signExtended_signExtend8 (x : UInt8) : SignExtended (signExtend8 x) := by
  rw [signExtend8_eq]
  exact signExtended_signExtend32 _

theorem signExtended_signExtend16 (x : UInt16) : SignExtended (signExtend16 x) := by
  rw [signExtend16_eq]
  exact signExtended_signExtend32 _

theorem signExtended_byte (x : UInt8) : SignExtended x.toUInt64 :=
  signExtended_of_lt (by
    rw [UInt8.toNat_toUInt64]
    exact Nat.lt_trans x.toNat_lt (by decide))

theorem signExtended_half (x : UInt16) : SignExtended x.toUInt64 :=
  signExtended_of_lt (by
    rw [UInt16.toNat_toUInt64]
    exact Nat.lt_trans x.toNat_lt (by decide))

namespace SignExtended

variable {a b : UInt64}

theorem and (ha : SignExtended a) (hb : SignExtended b) : SignExtended (a &&& b) := by
  rw [← ha, ← hb, ← signExtend32_and]
  exact signExtended_signExtend32 _

theorem or (ha : SignExtended a) (hb : SignExtended b) : SignExtended (a ||| b) := by
  rw [← ha, ← hb, ← signExtend32_or]
  exact signExtended_signExtend32 _

theorem xor (ha : SignExtended a) (hb : SignExtended b) : SignExtended (a ^^^ b) := by
  rw [← ha, ← hb, ← signExtend32_xor]
  exact signExtended_signExtend32 _

theorem not (ha : SignExtended a) : SignExtended (~~~a) := by
  rw [← ha, ← signExtend32_not]
  exact signExtended_signExtend32 _

/-- Replacing the low word by one with the same sign leaves a sign extension. -/
theorem replace_low (ha : SignExtended a) {w : UInt32}
    (hw : testBit32 w 31 = testBit32 a.toUInt32 31) :
    SignExtended (a &&& 0xFFFFFFFF00000000 ||| w.toUInt64) := by
  have hsign : w.toBitVec.msb = a.toUInt32.toBitVec.msb := by
    rw [testBit32_eq, testBit32_eq] at hw
    rw [BitVec.msb_eq_getLsbD_last, BitVec.msb_eq_getLsbD_last]
    exact hw
  have h : signExtend32 w = a &&& 0xFFFFFFFF00000000 ||| w.toUInt64 := by
    rw [← ha]
    apply UInt64.toBitVec_inj.1
    rw [UInt64.toBitVec_or, UInt64.toBitVec_and, toBitVec_signExtend32, toBitVec_signExtend32,
      UInt32.toBitVec_toUInt64,
      show (0xFFFFFFFF00000000 : UInt64).toBitVec = BitVec.allOnes 64 <<< 32 from rfl]
    ext i hi
    simp only [BitVec.getElem_signExtend, BitVec.getElem_or, BitVec.getElem_and,
      BitVec.getElem_shiftLeft, BitVec.getElem_setWidth, BitVec.getElem_allOnes, hsign]
    by_cases hlow : i < 32
    · simp [hlow, BitVec.getLsbD_eq_getElem]
    · have hbit : w.toBitVec.getLsbD i = false :=
        BitVec.getLsbD_of_ge _ _ (Nat.le_of_not_lt hlow)
      simp [hlow, hbit]
  rw [← h]
  exact signExtended_signExtend32 _

/-! ## Comparisons -/

theorem eq_iff (ha : SignExtended a) (hb : SignExtended b) : a = b ↔ a.toUInt32 = b.toUInt32 := by
  refine ⟨congrArg UInt64.toUInt32, fun h => ?_⟩
  rw [← ha, ← hb, h]

theorem toInt_eq (ha : SignExtended a) : a.toInt64.toInt = a.toUInt32.toInt32.toInt := by
  rw [← toInt_signExtend32, ha]

theorem lt_signed_iff (ha : SignExtended a) (hb : SignExtended b) :
    a.toInt64 < b.toInt64 ↔ a.toUInt32.toInt32 < b.toUInt32.toInt32 := by
  rw [Int64.lt_iff_toInt_lt, Int32.lt_iff_toInt_lt, ha.toInt_eq, hb.toInt_eq]

theorem le_signed_iff (ha : SignExtended a) (hb : SignExtended b) :
    a.toInt64 ≤ b.toInt64 ↔ a.toUInt32.toInt32 ≤ b.toUInt32.toInt32 := by
  rw [Int64.le_iff_toInt_le, Int32.le_iff_toInt_le, ha.toInt_eq, hb.toInt_eq]

theorem lt_iff (ha : SignExtended a) (hb : SignExtended b) : a < b ↔ a.toUInt32 < b.toUInt32 := by
  have hw := a.toUInt32.toNat_lt
  have hw' := b.toUInt32.toNat_lt
  rw [UInt64.lt_iff_toNat_lt, UInt32.lt_iff_toNat_lt, ← ha, ← hb, toUInt32_signExtend32,
    toUInt32_signExtend32, toNat_signExtend32, toNat_signExtend32]
  split <;> split <;> omega

theorem le_iff (ha : SignExtended a) (hb : SignExtended b) : a ≤ b ↔ a.toUInt32 ≤ b.toUInt32 := by
  rw [← UInt64.not_lt, ← UInt32.not_lt, hb.lt_iff ha]

end SignExtended

end R5900
