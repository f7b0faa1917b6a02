import Mathlib.Data.Nat.Bitwise
import R5900.BitField
import R5900.Fault

/-!
# Bits of words

A bit test of a word is a bit test of the number that the word spells (`testBit32_eq`), so the
bitwise operations act on tested bits one by one, and words with the same tested bits are equal
(`eq_of_testBit32`). Setting or clearing a bit changes that bit only (`testBit32_putBit32`), and
replacing the bits of a mask leaves alone whatever does not meet the mask.
-/

namespace R5900

/-! ## Words -/

theorem toNat_one_shiftLeft32 (p : UInt32) :
    ((1 : UInt32) <<< p).toNat = 2 ^ (p.toNat % 32) := by
  have hp : p.toNat % 32 < 32 := Nat.mod_lt _ (by decide)
  have hlt : 2 ^ (p.toNat % 32) < 2 ^ 32 := Nat.pow_lt_pow_right (by decide) hp
  rw [UInt32.toNat_shiftLeft, Nat.shiftLeft_eq, UInt32.toNat_one, Nat.one_mul,
    Nat.mod_eq_of_lt hlt]

theorem testBit32_eq (x p : UInt32) : testBit32 x p = x.toNat.testBit (p.toNat % 32) := by
  have hbit : (x &&& 1 <<< p).toNat =
      (x.toNat.testBit (p.toNat % 32)).toNat * 2 ^ (p.toNat % 32) := by
    rw [UInt32.toNat_and, toNat_one_shiftLeft32, Nat.and_two_pow]
  have hpos : 0 < 2 ^ (p.toNat % 32) := Nat.two_pow_pos _
  unfold testBit32
  cases h : x.toNat.testBit (p.toNat % 32) with
  | true =>
    rw [h, Bool.toNat_true, Nat.one_mul] at hbit
    refine bne_iff_ne.2 fun h0 => ?_
    rw [h0, UInt32.toNat_zero] at hbit
    omega
  | false =>
    rw [h, Bool.toNat_false, Nat.zero_mul] at hbit
    exact bne_eq_false_iff_eq.2 (UInt32.toNat_inj.1 hbit)

@[simp] theorem testBit32_zero (p : UInt32) : testBit32 0 p = false := by
  rw [testBit32_eq, UInt32.toNat_zero, Nat.zero_testBit]

@[simp] theorem testBit32_and (x y p : UInt32) :
    testBit32 (x &&& y) p = (testBit32 x p && testBit32 y p) := by
  simp only [testBit32_eq, UInt32.toNat_and, Nat.testBit_and]

@[simp] theorem testBit32_or (x y p : UInt32) :
    testBit32 (x ||| y) p = (testBit32 x p || testBit32 y p) := by
  simp only [testBit32_eq, UInt32.toNat_or, Nat.testBit_or]

@[simp] theorem testBit32_xor (x y p : UInt32) :
    testBit32 (x ^^^ y) p = (testBit32 x p ^^ testBit32 y p) := by
  simp only [testBit32_eq, UInt32.toNat_xor, Nat.testBit_xor]

@[simp] theorem testBit32_not (x p : UInt32) : testBit32 (~~~x) p = !testBit32 x p := by
  have hp : p.toNat % 32 < 32 := Nat.mod_lt _ (by decide)
  rw [testBit32_eq, testBit32_eq]
  show (~~~x.toBitVec).getLsbD (p.toNat % 32) = !x.toBitVec.getLsbD (p.toNat % 32)
  rw [BitVec.getLsbD_not, decide_eq_true hp, Bool.true_and]

@[simp] theorem testBit32_ones (p : UInt32) : testBit32 0xFFFFFFFF p = true := by
  rw [show (0xFFFFFFFF : UInt32) = ~~~0 from rfl, testBit32_not, testBit32_zero, Bool.not_false]

@[simp] theorem and_ones32 (x : UInt32) : x &&& 0xFFFFFFFF = x :=
  UInt32.toBitVec_inj.1 BitVec.and_allOnes

@[simp] theorem testBit32_one_shiftLeft (p q : UInt32) :
    testBit32 (1 <<< p) q = decide (p.toNat % 32 = q.toNat % 32) := by
  rw [testBit32_eq, toNat_one_shiftLeft32, Nat.testBit_two_pow]

theorem testBit32_ofNat (n : Nat) {p : UInt32} (hp : p.toNat < 32) :
    testBit32 (UInt32.ofNat n) p = n.testBit p.toNat := by
  rw [testBit32_eq, Nat.mod_eq_of_lt hp, UInt32.toNat_ofNat', Nat.testBit_mod_two_pow,
    decide_eq_true hp, Bool.true_and]

/-- A bit of a word shifted up is the bit that was moved there. -/
theorem testBit32_shiftLeft (x : UInt32) {n p : UInt32} (hn : n < 32) (hp : p < 32) :
    testBit32 (x <<< n) p =
      (decide (n.toNat ≤ p.toNat) && x.toNat.testBit (p.toNat - n.toNat)) := by
  have hn' : n.toNat % 32 = n.toNat := Nat.mod_eq_of_lt hn
  have hp' : p.toNat % 32 = p.toNat := Nat.mod_eq_of_lt hp
  have hlt : p.toNat < 32 := hp
  rw [testBit32_eq, UInt32.toNat_shiftLeft, hn', hp', Nat.testBit_mod_two_pow,
    Nat.testBit_shiftLeft, decide_eq_true hlt, Bool.true_and]

/-- A field of a word as a number. -/
theorem toNat_field32 (x : UInt32) {start length : UInt32} (hstart : start < 32)
    (hlength : length < 32) :
    (field32 x start length).toNat = x.toNat / 2 ^ start.toNat % 2 ^ length.toNat := by
  have hstart : start.toNat % 32 = start.toNat := Nat.mod_eq_of_lt hstart
  have hlength : length.toNat % 32 = length.toNat := Nat.mod_eq_of_lt hlength
  have hones : ((1 <<< length : UInt32) - 1).toNat = 2 ^ length.toNat - 1 := by
    have hpos : 0 < 2 ^ length.toNat := Nat.two_pow_pos _
    have hone := toNat_one_shiftLeft32 length
    rw [hlength] at hone
    rw [UInt32.toNat_sub_of_le _ _ (UInt32.le_iff_toNat_le.2 (hone ▸ hpos)), hone]
    rfl
  rw [field32, UInt32.toNat_and, UInt32.toNat_shiftRight, hones, hstart,
    Nat.and_two_pow_sub_one_eq_mod, Nat.shiftRight_eq_div_pow]

/-- A bit of a field is the bit of the word that was moved there. -/
theorem testBit32_field32 (x : UInt32) {start length p : UInt32} (hstart : start < 32)
    (hlength : length < 32) (hp : p < 32) :
    testBit32 (field32 x start length) p =
      (decide (p.toNat < length.toNat) && x.toNat.testBit (start.toNat + p.toNat)) := by
  have hp : p.toNat % 32 = p.toNat := Nat.mod_eq_of_lt hp
  rw [testBit32_eq, toNat_field32 x hstart hlength, hp, Nat.testBit_mod_two_pow,
    Nat.testBit_div_two_pow, Nat.add_comm]

/-- Setting or clearing a bit changes that bit and no other. -/
theorem testBit32_putBit32 (x p q : UInt32) (value : Bool) :
    testBit32 (putBit32 x p value) q =
      if p.toNat % 32 = q.toNat % 32 then value else testBit32 x q := by
  unfold putBit32
  rw [testBit32_or, testBit32_and, testBit32_not, testBit32_one_shiftLeft]
  by_cases h : p.toNat % 32 = q.toNat % 32
  · cases value <;> simp [h]
  · cases value <;> simp [h]

theorem testBit32_of_toNat_mod {x p q : UInt32} (h : p.toNat % 32 = q.toNat % 32) :
    testBit32 x p = testBit32 x q := by
  rw [testBit32_eq, testBit32_eq, h]

/-- Words with the same bits are equal. -/
theorem eq_of_testBit32 {x y : UInt32} (h : ∀ p, testBit32 x p = testBit32 y p) : x = y := by
  refine UInt32.toNat_inj.1 (Nat.eq_of_testBit_eq fun i => ?_)
  by_cases hi : i < 32
  · have hp : (UInt32.ofNat i).toNat % 32 = i := by
      rw [UInt32.toNat_ofNat_of_lt' (Nat.lt_trans hi (by decide)), Nat.mod_eq_of_lt hi]
    have hbit := h (UInt32.ofNat i)
    rwa [testBit32_eq, testBit32_eq, hp] at hbit
  · have hle : 2 ^ 32 ≤ 2 ^ i := Nat.pow_le_pow_right (by decide) (Nat.le_of_not_lt hi)
    rw [Nat.testBit_lt_two_pow (Nat.lt_of_lt_of_le x.toNat_lt hle),
      Nat.testBit_lt_two_pow (Nat.lt_of_lt_of_le y.toNat_lt hle)]

/-! ## Words of other widths

A halfword or a doubleword has too few or too many bits to be tested by a word; its bits are those
of the number that it spells. -/

section BitVec

variable {w n : Nat} (x : BitVec w) (hn : n < w)
include hn

theorem and_one_shiftLeft_ne_zero : (x &&& 1#w <<< n != 0) = x.getLsbD n := by
  have hone : (1#w <<< n).toNat = 2 ^ n := by
    rw [BitVec.toNat_shiftLeft, BitVec.toNat_ofNat, Nat.shiftLeft_eq,
      Nat.mod_eq_of_lt (Nat.one_lt_two_pow (by omega)), Nat.one_mul,
      Nat.mod_eq_of_lt (Nat.pow_lt_pow_right (by decide) hn)]
  have hbit : (x &&& 1#w <<< n).toNat = (x.getLsbD n).toNat * 2 ^ n := by
    rw [BitVec.toNat_and, hone, Nat.and_two_pow]
    rfl
  have hpos : 0 < 2 ^ n := Nat.two_pow_pos _
  cases h : x.getLsbD n with
  | true =>
    rw [h, Bool.toNat_true, Nat.one_mul] at hbit
    refine bne_iff_ne.2 fun h0 => ?_
    rw [h0] at hbit
    exact Nat.ne_of_lt hpos hbit
  | false =>
    rw [h, Bool.toNat_false, Nat.zero_mul] at hbit
    exact bne_eq_false_iff_eq.2 (BitVec.eq_of_toNat_eq hbit)

theorem getLsbD_replaceBit (value : Bool) (i : Nat) :
    (x &&& ~~~(1#w <<< n) ||| (if value then 1#w <<< n else 0)).getLsbD i =
      if n = i then value else x.getLsbD i := by
  have hone : (1#w <<< n).getLsbD i = decide (n = i) := by
    rw [BitVec.getLsbD_shiftLeft, BitVec.getLsbD_one, Bool.eq_iff_iff]
    simp only [Bool.and_eq_true, decide_eq_true_iff, Bool.not_eq_true', decide_eq_false_iff_not]
    omega
  have hvalue : (if value then 1#w <<< n else 0 : BitVec w).getLsbD i =
      (value && decide (n = i)) := by
    cases value
    · exact BitVec.getLsbD_zero
    · exact hone
  rw [BitVec.getLsbD_or, BitVec.getLsbD_and, BitVec.getLsbD_not, hone, hvalue]
  by_cases h : n = i
  · subst h
    simp [hn]
  · simpa [h] using fun hset => BitVec.lt_of_getLsbD hset

end BitVec

section Place

variable {w n i : Nat} (old new : BitVec w) (hi : i < w)
include hi

/-- Below the position `n` the bits are kept, and from there up they are those put in place. -/
theorem getLsbD_placeAbove (hn : n < w) :
    (old &&& (1#w <<< n - 1#w) ||| new <<< n).getLsbD i =
      if i < n then old.getLsbD i else new.getLsbD (i - n) := by
  have hpow : 2 ^ n < 2 ^ w := Nat.pow_lt_pow_right (by decide) hn
  have hpos : 0 < 2 ^ n := Nat.two_pow_pos n
  have hone : (1#w).toNat = 1 := by rw [BitVec.toNat_ofNat, Nat.mod_eq_of_lt (by omega)]
  have hbit : (1#w <<< n).toNat = 2 ^ n := by
    rw [BitVec.toNat_shiftLeft, hone, Nat.shiftLeft_eq, Nat.one_mul, Nat.mod_eq_of_lt hpow]
  have hones : (1#w <<< n - 1#w).getLsbD i = decide (i < n) := by
    rw [← BitVec.testBit_toNat, BitVec.toNat_sub_of_le (by rw [BitVec.le_def, hone, hbit]; omega),
      hone, hbit, Nat.testBit_two_pow_sub_one]
  rw [BitVec.getLsbD_or, BitVec.getLsbD_and, hones, BitVec.getLsbD_shiftLeft]
  by_cases h : i < n <;> simp [h, hi]

/-- The highest `n` bits are kept, and below them are those put in place. -/
theorem getLsbD_placeBelow :
    (old &&& ~~~(BitVec.allOnes w >>> n) ||| new >>> n).getLsbD i =
      if n + i < w then new.getLsbD (n + i) else old.getLsbD i := by
  rw [BitVec.getLsbD_or, BitVec.getLsbD_and, BitVec.getLsbD_not, BitVec.getLsbD_ushiftRight,
    BitVec.getLsbD_ushiftRight, BitVec.getLsbD_allOnes]
  by_cases h : n + i < w
  · simp [h]
  · simp [h, hi, BitVec.getLsbD_of_ge new (n + i) (by omega)]

end Place

theorem testBit16_eq (x p : UInt16) : testBit16 x p = x.toNat.testBit (p.toNat % 16) := by
  have hp : p.toNat % 16 < 16 := Nat.mod_lt _ (by decide)
  have hbit := and_one_shiftLeft_ne_zero x.toBitVec hp
  have hone : ((1 : UInt16) <<< p).toBitVec = 1#16 <<< (p.toNat % 16) :=
    UInt16.toBitVec_shiftLeft ..
  rw [← hone, ← BitVec.testBit_toNat] at hbit
  refine Eq.trans ?_ hbit
  rw [testBit16, Bool.eq_iff_iff, bne_iff_ne, bne_iff_ne, ne_eq, ← UInt16.toBitVec_inj]
  rfl

/-- Setting or clearing a bit of a halfword changes that bit and no other. -/
theorem testBit_putBit16 (x p : UInt16) (value : Bool) (i : Nat) :
    (putBit16 x p value).toNat.testBit i =
      if p.toNat % 16 = i then value else x.toNat.testBit i := by
  have hbit := getLsbD_replaceBit x.toBitVec (Nat.mod_lt p.toNat (show 16 > 0 by decide)) value i
  have hone : ((1 : UInt16) <<< p).toBitVec = 1#16 <<< (p.toNat % 16) :=
    UInt16.toBitVec_shiftLeft ..
  rw [← hone] at hbit
  cases value <;> exact hbit

theorem testBit_not64 (x : UInt64) {i : Nat} (hi : i < 64) :
    (~~~x).toNat.testBit i = !x.toNat.testBit i := by
  show (~~~x.toBitVec).getLsbD i = !x.toBitVec.getLsbD i
  rw [BitVec.getLsbD_not, decide_eq_true hi, Bool.true_and]

/-! ## Masks -/

/-- Setting or clearing a bit does not show under a mask without it. -/
theorem putBit32_and {x p k : UInt32} (value : Bool) (h : testBit32 k p = false) :
    putBit32 x p value &&& k = x &&& k := by
  refine eq_of_testBit32 fun q => ?_
  rw [testBit32_and, testBit32_and, testBit32_putBit32]
  split
  · rename_i hpq
    rw [← testBit32_of_toNat_mod hpq, h, Bool.and_false, Bool.and_false]
  · rfl

/-- Replacing the bits of a mask does not show under a mask that does not meet it. -/
theorem replace_and_of_disjoint (x y : UInt32) {mask k : UInt32} (h : mask &&& k = 0) :
    (x &&& ~~~mask ||| y &&& mask) &&& k = x &&& k := by
  refine eq_of_testBit32 fun q => ?_
  have hq : (testBit32 mask q && testBit32 k q) = false := by
    rw [← testBit32_and, h, testBit32_zero]
  simp only [testBit32_and, testBit32_or, testBit32_not]
  generalize testBit32 mask q = a at hq ⊢
  generalize testBit32 k q = b at hq ⊢
  cases a <;> cases b <;> simp_all

/-- Under the mask itself, only the replacement shows. -/
theorem replace_and_self (x y mask : UInt32) :
    (x &&& ~~~mask ||| y &&& mask) &&& mask = y &&& mask := by
  refine eq_of_testBit32 fun q => ?_
  simp only [testBit32_and, testBit32_or, testBit32_not]
  cases testBit32 mask q <;> simp

/-- A doubleword is not changed by clearing bits that it does not have. -/
theorem and_not_of_disjoint64 {x y : UInt64} (h : x &&& y = 0) : x &&& ~~~y = x := by
  refine UInt64.toBitVec_inj.1 (BitVec.eq_of_getLsbD_eq fun i hi => ?_)
  have hbit : (x.toBitVec &&& y.toBitVec).getLsbD i = (0#64).getLsbD i :=
    congrArg (fun z : UInt64 => z.toBitVec.getLsbD i) h
  rw [BitVec.getLsbD_and, BitVec.getLsbD_zero] at hbit
  rw [UInt64.toBitVec_and, UInt64.toBitVec_not, BitVec.getLsbD_and, BitVec.getLsbD_not,
    decide_eq_true hi]
  cases hx : x.toBitVec.getLsbD i <;> simp_all

/-- Setting or clearing a bit of a doubleword does not show under a mask without it. -/
theorem putBit64_and (x : UInt64) {p k : UInt64} (value : Bool) (h : k &&& (1 <<< p) = 0) :
    putBit64 x p value &&& k = x &&& k := by
  have hclear : x &&& ~~~(1 <<< p) &&& k = x &&& k := by
    rw [UInt64.and_assoc, UInt64.and_comm _ k, and_not_of_disjoint64 h]
  cases value with
  | false => rw [putBit64, if_neg Bool.false_ne_true, UInt64.or_zero, hclear]
  | true =>
    have hbit : ((1 : UInt64) <<< p).toBitVec &&& k.toBitVec = 0#64 :=
      (BitVec.and_comm ..).trans (congrArg UInt64.toBitVec h)
    refine UInt64.toBitVec_inj.1 ?_
    show ((x &&& ~~~(1 <<< p)).toBitVec ||| ((1 : UInt64) <<< p).toBitVec) &&& k.toBitVec = _
    rw [BitVec.and_or_distrib_right, hbit, BitVec.or_zero]
    exact congrArg UInt64.toBitVec hclear

/-- Words without a common bit are those whose tested bits are never both set. -/
theorem and_ne_zero_of_testBit32 {x y p : UInt32} (hx : testBit32 x p = true)
    (hy : testBit32 y p = true) : x &&& y ≠ 0 := by
  intro h
  have hbit : testBit32 (x &&& y) p = true := by rw [testBit32_and, hx, hy]; rfl
  rw [h, testBit32_zero] at hbit
  cases hbit

end R5900
