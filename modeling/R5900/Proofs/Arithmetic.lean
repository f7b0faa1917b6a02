import Mathlib.Data.Nat.Bitwise
import R5900.Execute.Operation
import R5900.Instruction.Decode

/-!
# Checked arithmetic that succeeds

The operations of the processor are computed with checked arithmetic. This module says why the
checks of each operation hold, for all operands:

* a shift by a field of five or six bits stays below the width (`VarShiftOp.eval_eq_ok`), and so
  does a shift by a constant below 32 (`ShiftOp.eval_eq_ok`);
* a product of words fits a doubleword (`product_eq_ok`), and a quotient is only taken where it
  exists and fits (`quotient_eq_ok`);
* a word whose sign was cleared has a leading zero (`signRepeats_eq_ok`).
-/

namespace R5900

/-! ## Sums and masks -/

namespace Checked

theorem add8_eq_ok {a b : UInt8} (h : a.toNat + b.toNat < 2 ^ 8) : add8 a b = .ok (a + b) := by
  have hn : ¬a + b < a := by
    rw [UInt8.lt_iff_toNat_lt, UInt8.toNat_add, Nat.mod_eq_of_lt h]
    omega
  rw [add8, if_neg hn]

theorem add32_eq_ok {a b : UInt32} (h : a.toNat + b.toNat < 2 ^ 32) :
    add32 a b = .ok (a + b) := by
  have hn : ¬a + b < a := by
    rw [UInt32.lt_iff_toNat_lt, UInt32.toNat_add, Nat.mod_eq_of_lt h]
    omega
  rw [add32, if_neg hn]

/-- A checked sum that does not fault is the sum. -/
theorem eq_of_add32 {a b c : UInt32} (h : add32 a b = .ok c) : c = a + b := by
  unfold add32 at h
  split at h <;> cases h
  rfl

theorem add64_eq_ok {a b : UInt64} (h : a.toNat + b.toNat < 2 ^ 64) :
    add64 a b = .ok (a + b) := by
  have hn : ¬a + b < a := by
    rw [UInt64.lt_iff_toNat_lt, UInt64.toNat_add, Nat.mod_eq_of_lt h]
    omega
  rw [add64, if_neg hn]

/-- A checked sum that does not fit faults. -/
theorem add64_eq_error {a b : UInt64} (h : 2 ^ 64 ≤ a.toNat + b.toNat) :
    add64 a b = .error .overflow := by
  have hlt : a + b < a := by
    have ha := a.toNat_lt
    have hb := b.toNat_lt
    rw [UInt64.lt_iff_toNat_lt, UInt64.toNat_add]
    omega
  rw [add64, if_pos hlt]

end Checked

/-- Masking with `k` ones keeps the remainder modulo `2 ^ k`. -/
theorem toNat_and_mask (a mask : UInt32) (k : Nat) (h : mask.toNat = 2 ^ k - 1) :
    (a &&& mask).toNat = a.toNat % 2 ^ k := by
  rw [UInt32.toNat_and, h, Nat.and_two_pow_sub_one_eq_mod]

/-- A word is the sum of its bits in a mask and its bits outside it. -/
theorem and_add_and_not (a mask : UInt32) : (a &&& mask) + (a &&& ~~~mask) = a := by
  refine UInt32.toBitVec_inj.1 ?_
  have hdisjoint : (a.toBitVec &&& mask.toBitVec) &&& (a.toBitVec &&& ~~~mask.toBitVec) = 0#32 := by
    ext i
    simp only [BitVec.getElem_and, BitVec.getElem_not, BitVec.getElem_zero]
    cases a.toBitVec[i] <;> cases mask.toBitVec[i] <;> rfl
  show (a.toBitVec &&& mask.toBitVec) + (a.toBitVec &&& ~~~mask.toBitVec) = a.toBitVec
  rw [BitVec.add_eq_or_of_and_eq_zero _ _ hdisjoint, ← BitVec.and_or_distrib_left,
    BitVec.or_not_self, BitVec.and_allOnes]

/-- Clearing the low `k` bits rounds down to a multiple of `2 ^ k`. -/
theorem toNat_and_not_mask (a mask : UInt32) (k : Nat) (h : mask.toNat = 2 ^ k - 1) :
    (a &&& ~~~mask).toNat = a.toNat - a.toNat % 2 ^ k := by
  have hsum := congrArg UInt32.toNat (and_add_and_not a mask)
  have hle : (a &&& ~~~mask).toNat ≤ a.toNat := by
    rw [UInt32.toNat_and]
    exact Nat.and_le_left
  have hmod := Nat.mod_le a.toNat (2 ^ k)
  have hlt := a.toNat_lt
  rw [UInt32.toNat_add, toNat_and_mask a mask k h] at hsum
  omega

theorem field32_le (x start length : UInt32) : field32 x start length ≤ (1 <<< length) - 1 := by
  rw [field32, UInt32.le_iff_toNat_le, UInt32.toNat_and]
  exact Nat.and_le_right

/-- The top bit of a word is clear exactly if the word is below `2 ^ 31`. -/
theorem testBit32_top (x : UInt32) : testBit32 x 31 = false ↔ x.toNat < 2 ^ 31 := by
  have hmask : ((1 : UInt32) <<< (31 : UInt32)).toNat = 2 ^ 31 := by decide
  have hx := x.toNat_lt
  have htop : (x &&& ((1 : UInt32) <<< (31 : UInt32))).toNat =
      (x.toNat.testBit 31).toNat * 2 ^ 31 := by
    rw [UInt32.toNat_and, hmask, Nat.and_two_pow]
  rw [testBit32, bne_eq_false_iff_eq, ← UInt32.toNat_inj, htop, Nat.testBit_eq_decide_div_mod_eq]
  by_cases h : x.toNat / 2 ^ 31 % 2 = 1
  · simp only [h, decide_true, Bool.toNat_true, UInt32.toNat_zero]
    omega
  · simp only [h, decide_false, Bool.toNat_false, UInt32.toNat_zero]
    omega

/-! ## Shifts -/

theorem ShiftOp.eval_eq_ok (op : ShiftOp) (a : UInt64) {amount : UInt8} (h : amount < 32) :
    ∃ v, op.eval a amount = .ok v := by
  rw [UInt8.lt_iff_toNat_lt] at h
  have hlt : amount.toNat < 32 := h
  have h32 : amount.toUInt32 < 32 := by
    rw [UInt32.lt_iff_toNat_lt, UInt8.toNat_toUInt32]
    exact hlt
  have h64 : amount.toUInt64 < 64 := by
    rw [UInt64.lt_iff_toNat_lt, UInt8.toNat_toUInt64]
    exact Nat.lt_trans hlt (by decide)
  have hsum : amount.toNat + (32 : UInt8).toNat < 64 := Nat.add_lt_add_right hlt 32
  have hadd : Checked.add8 amount 32 = .ok (amount + 32) :=
    Checked.add8_eq_ok (Nat.lt_trans hsum (by decide))
  have h64' : (amount + 32).toUInt64 < 64 := by
    rw [UInt64.lt_iff_toNat_lt, UInt8.toNat_toUInt64, UInt8.toNat_add,
      Nat.mod_eq_of_lt (Nat.lt_trans hsum (by decide))]
    exact hsum
  cases op with
  | sll => exact ⟨_, by rw [eval, Checked.shiftLeft32, if_pos h32]; rfl⟩
  | srl => exact ⟨_, by rw [eval, Checked.shiftRight32, if_pos h32]; rfl⟩
  | sra => exact ⟨_, by rw [eval, Checked.shiftRightSigned32, if_pos h32]; rfl⟩
  | dsll => exact ⟨_, by rw [eval, Checked.shiftLeft64, if_pos h64]⟩
  | dsrl => exact ⟨_, by rw [eval, Checked.shiftRight64, if_pos h64]⟩
  | dsra => exact ⟨_, by rw [eval, Checked.shiftRightSigned64, if_pos h64]⟩
  | dsll32 => exact ⟨_, by rw [eval, hadd]; exact if_pos h64'⟩
  | dsrl32 => exact ⟨_, by rw [eval, hadd]; exact if_pos h64'⟩
  | dsra32 => exact ⟨_, by rw [eval, hadd]; exact if_pos h64'⟩

theorem VarShiftOp.eval_eq_ok (op : VarShiftOp) (a : UInt64) (amount : UInt32) :
    ∃ v, op.eval a amount = .ok v := by
  have h32 : field32 amount 0 5 < 32 := UInt32.lt_of_le_of_lt (field32_le ..) (by decide)
  have h64 : (field32 amount 0 6).toUInt64 < 64 := by
    have h : field32 amount 0 6 < 64 := UInt32.lt_of_le_of_lt (field32_le ..) (by decide)
    rw [UInt64.lt_iff_toNat_lt, UInt32.toNat_toUInt64]
    exact UInt32.lt_iff_toNat_lt.1 h
  cases op with
  | sllv => exact ⟨_, by rw [eval, Checked.shiftLeft32, if_pos h32]; rfl⟩
  | srlv => exact ⟨_, by rw [eval, Checked.shiftRight32, if_pos h32]; rfl⟩
  | srav => exact ⟨_, by rw [eval, Checked.shiftRightSigned32, if_pos h32]; rfl⟩
  | dsllv => exact ⟨_, by rw [eval, Checked.shiftLeft64, if_pos h64]⟩
  | dsrlv => exact ⟨_, by rw [eval, Checked.shiftRight64, if_pos h64]⟩
  | dsrav => exact ⟨_, by rw [eval, Checked.shiftRightSigned64, if_pos h64]⟩

/-! ## Products and quotients -/

/-- The product of two words fits a doubleword, with and without signs. -/
theorem product_eq_ok (signed : Bool) (a b : UInt32) : ∃ v, product signed a b = .ok v := by
  unfold product
  split
  · have ha := a.toInt32.le_toInt
    have ha' := a.toInt32.toInt_lt
    have hb := b.toInt32.le_toInt
    have hb' := b.toInt32.toInt_lt
    have habs : (a.toInt32.toInt * b.toInt32.toInt).natAbs ≤ 2 ^ 31 * 2 ^ 31 := by
      rw [Int.natAbs_mul]
      exact Nat.mul_le_mul (by omega) (by omega)
    have hfit : Int64.minValue.toInt ≤ a.toInt32.toInt64.toInt * b.toInt32.toInt64.toInt ∧
        a.toInt32.toInt64.toInt * b.toInt32.toInt64.toInt ≤ Int64.maxValue.toInt := by
      rw [Int32.toInt_toInt64, Int32.toInt_toInt64, Int64.toInt_minValue, Int64.toInt_maxValue]
      omega
    rw [Checked.mulSigned64, if_pos hfit]
    exact ⟨_, rfl⟩
  · have hlt : a.toNat * b.toNat < 2 ^ 32 * 2 ^ 32 := Nat.mul_lt_mul'' a.toNat_lt b.toNat_lt
    have hfit : a.toUInt64.toNat * b.toUInt64.toNat < UInt64.size := by
      rw [UInt32.toNat_toUInt64, UInt32.toNat_toUInt64]
      exact hlt
    rw [Checked.mul64, if_pos hfit]
    exact ⟨_, rfl⟩

/-- Division by zero and the one quotient that does not fit are set apart before dividing. -/
theorem quotient_eq_ok (signed : Bool) (n d : UInt32) : ∃ v, quotient signed n d = .ok v := by
  cases signed with
  | true =>
    show ∃ v, quotientSigned n d = .ok v
    unfold quotientSigned
    by_cases hzero : d.toInt32 = 0
    · exact ⟨_, if_pos hzero⟩
    · by_cases hleast : n.toInt32 = Int32.minValue ∧ d.toInt32 = -1
      · exact ⟨_, (if_neg hzero).trans (if_pos hleast)⟩
      · have hfit : ¬(d.toInt32 = 0 ∨ n.toInt32 = Int32.minValue ∧ d.toInt32 = -1) := by
          rintro (h | h)
          · exact hzero h
          · exact hleast h
        simp only [if_neg hzero, if_neg hleast, Checked.divModSigned32, if_neg hfit]
        exact ⟨_, rfl⟩
  | false =>
    show ∃ v, quotientUnsigned n d = .ok v
    unfold quotientUnsigned Checked.divMod32
    by_cases hzero : d = 0
    · exact ⟨_, if_pos hzero⟩
    · exact ⟨_, (if_neg hzero).trans (if_neg hzero)⟩

/-! ## Sign repetitions -/

theorem log2_lt_of_top_clear {x : UInt32} (h0 : x ≠ 0) (h : x.toNat < 2 ^ 31) :
    x.log2.toNat < 31 := by
  have hne : x.toNat ≠ 0 := fun hx => h0 (UInt32.toNat_inj.1 hx)
  exact (Nat.log2_lt hne).2 h

/-- A word without its sign bit has a leading zero. -/
theorem one_le_leadingZeros {x : UInt32} (h : x.toNat < 2 ^ 31) : ¬leadingZeros x < 1 := by
  rw [UInt64.lt_iff_toNat_lt]
  unfold leadingZeros
  split
  · decide
  · rename_i h0
    have hlog := log2_lt_of_top_clear h0 h
    have hle : x.log2.toUInt64 ≤ 31 := by
      rw [UInt64.le_iff_toNat_le, UInt32.toNat_toUInt64]
      exact Nat.le_of_lt hlog
    rw [UInt64.toNat_sub_of_le _ _ hle, UInt32.toNat_toUInt64]
    show ¬31 - x.log2.toNat < 1
    omega

theorem signRepeats_eq_ok (x : UInt32) : ∃ v, signRepeats x = .ok v := by
  have htop : (if testBit32 x 31 then ~~~x else x).toNat < 2 ^ 31 := by
    split
    · rename_i h
      have hx : ¬x.toNat < 2 ^ 31 := by
        rw [← testBit32_top, h]
        exact Bool.noConfusion
      have hlt := x.toNat_lt
      rw [UInt32.toNat_not]
      show 2 ^ 32 - 1 - x.toNat < 2 ^ 31
      omega
    · rename_i h
      exact (testBit32_top x).1 (Bool.eq_false_iff.2 h)
  exact ⟨_, by rw [signRepeats, Checked.sub64, if_neg (one_le_leadingZeros htop)]⟩

theorem leadingSignsOf_eq_ok (a : UInt64) : ∃ v, leadingSignsOf a = .ok v := by
  obtain ⟨high, hhigh⟩ := signRepeats_eq_ok (a >>> (32 : UInt64)).toUInt32
  obtain ⟨low, hlow⟩ := signRepeats_eq_ok a.toUInt32
  exact ⟨_, by rw [leadingSignsOf, hhigh, hlow]; rfl⟩

end R5900
