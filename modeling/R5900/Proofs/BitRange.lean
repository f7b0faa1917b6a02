import R5900.Proofs.BitField

/-!
# Bit fields by ranges

The functions of `BitField` on a range that denotes the positions from `start` up to `stop`, where
these are in order and inside the word. The ends of the range may be given in any way, and the index
type only has to hold the width.

* `BitRange.Spans`: which positions a range denotes.
* `BitField.mask_eq`, `extract_eq`, `insert_eq`: no check of the functions fails on such a range.
* `getLsbD_rangeMask`, `toNat_fieldOf`, `getLsbD_replaceField`: what they answer.
* `BitField.range_exact`: the laws of fields.
* `extract_field32`, `bit_testBit32`, `insertBit_putBit32`: the functions on words are these.
-/

namespace R5900

/-- The range denotes the positions from `start` up to `stop`, exclusive, of a word of `width`
bits. -/
structure BitRange.Spans (range : BitRange) (width start stop : Nat) : Prop where
  first : match range.first with
    | .included n => n = start
    | .excluded n => n + 1 = start
    | .unbounded => start = 0
  last : match range.last with
    | .included n => n + 1 = stop
    | .excluded n => n = stop
    | .unbounded => stop = width
  start_lt : start < stop
  stop_le : stop ≤ width

namespace BitField

variable {w : Nat}

/-! ## Answers -/

/-- The word whose low `n` bits are set. -/
def lowOnes (w n : Nat) : BitVec w := BitVec.allOnes w >>> (w - n)

/-- The word with the bits from `start` up to `stop` set. -/
def rangeMask (w start stop : Nat) : BitVec w := lowOnes w (stop - start) <<< start

/-- The bits from `start` up to `stop`, moved down. -/
def fieldOf (start stop : Nat) (x : BitVec w) : BitVec w := x >>> start &&& lowOnes w (stop - start)

/-- The word `x` with the low bits of `value` in place of the bits from `start` up to `stop`. -/
def replaceField (start stop : Nat) (x value : BitVec w) : BitVec w :=
  x &&& ~~~rangeMask w start stop ||| value <<< start &&& rangeMask w start stop

section Spans

variable {indexBits start stop : Nat} {range : BitRange}

theorem successor_eq (hw : w < 2 ^ indexBits) {n : Nat} (hn : n + 1 ≤ w) :
    BitRange.successor indexBits n = .ok (n + 1) := by
  rw [BitRange.successor, Nat.one_shiftLeft, if_pos (Nat.lt_of_le_of_lt hn hw)]

variable (hw : w < 2 ^ indexBits) (h : range.Spans w start stop)
include hw h

theorem start_eq : range.start indexBits = .ok start := by
  obtain ⟨first, last⟩ := range
  obtain ⟨hfirst, -, hlt, hle⟩ := h
  cases first with
  | included n => exact congrArg _ hfirst
  | excluded n =>
    obtain rfl : n + 1 = start := hfirst
    exact successor_eq hw (Nat.le_trans (Nat.le_of_lt hlt) hle)
  | unbounded => exact congrArg _ (Eq.symm hfirst)

theorem stop_eq : range.stop indexBits w = .ok stop := by
  obtain ⟨first, last⟩ := range
  obtain ⟨-, hlast, -, hle⟩ := h
  cases last with
  | included n =>
    obtain rfl : n + 1 = stop := hlast
    exact successor_eq hw hle
  | excluded n => exact congrArg _ hlast
  | unbounded => exact congrArg _ (Eq.symm hlast)

omit hw in
theorem ones_eq : ones start stop = .ok (lowOnes w (stop - start)) := by
  have hlt := h.start_lt
  have hle := h.stop_le
  rw [ones, if_pos (by omega), shiftRight, if_pos (by omega), lowOnes]

omit hw in
theorem shiftLeft_eq (x : BitVec w) : shiftLeft x start = .ok (x <<< start) :=
  if_pos (Nat.lt_of_lt_of_le h.start_lt h.stop_le)

theorem mask_eq : mask indexBits range = .ok (rangeMask w start stop) := by
  rw [mask, start_eq hw h, stop_eq hw h]
  show (ones start stop >>= fun m => shiftLeft m start) = _
  rw [ones_eq h]
  exact shiftLeft_eq h _

theorem extract_eq (x : BitVec w) : extract indexBits range x = .ok (fieldOf start stop x) := by
  have hshift : shiftRight x start = .ok (x >>> start) :=
    if_pos (Nat.lt_of_lt_of_le h.start_lt h.stop_le)
  rw [extract, start_eq hw h, stop_eq hw h]
  show (do return (← shiftRight x start) &&& (← ones start stop)) = _
  rw [hshift, ones_eq h]
  rfl

theorem insert_eq (x value : BitVec w) :
    insert indexBits range x value = .ok (replaceField start stop x value) := by
  rw [insert, start_eq hw h, mask_eq hw h]
  show (do return x &&& ~~~rangeMask w start stop |||
    (← shiftLeft value start) &&& rangeMask w start stop) = _
  rw [shiftLeft_eq h]
  rfl

end Spans

/-! ## Bits of the answers -/

theorem getLsbD_lowOnes {n : Nat} (hn : n ≤ w) (i : Nat) :
    (lowOnes w n).getLsbD i = decide (i < n) := by
  rw [lowOnes, BitVec.getLsbD_ushiftRight, BitVec.getLsbD_allOnes, decide_eq_decide]
  omega

theorem toNat_lowOnes {n : Nat} (hn : n ≤ w) : (lowOnes w n).toNat = 2 ^ n - 1 := by
  refine Nat.eq_of_testBit_eq fun i => ?_
  rw [BitVec.testBit_toNat, getLsbD_lowOnes hn, Nat.testBit_two_pow_sub_one]

section Positions

variable {start stop : Nat} (hle : stop ≤ w)
include hle

theorem getLsbD_rangeMask (i : Nat) :
    (rangeMask w start stop).getLsbD i = decide (start ≤ i ∧ i < stop) := by
  rw [rangeMask, BitVec.getLsbD_shiftLeft, getLsbD_lowOnes (by omega), Bool.eq_iff_iff]
  simp only [Bool.and_eq_true, decide_eq_true_iff, Bool.not_eq_true', decide_eq_false_iff_not]
  omega

theorem toNat_fieldOf (x : BitVec w) :
    (fieldOf start stop x).toNat = x.toNat / 2 ^ start % 2 ^ (stop - start) := by
  rw [fieldOf, BitVec.toNat_and, toNat_lowOnes (by omega), Nat.and_two_pow_sub_one_eq_mod,
    BitVec.toNat_ushiftRight, Nat.shiftRight_eq_div_pow]

theorem getLsbD_fieldOf (x : BitVec w) (i : Nat) :
    (fieldOf start stop x).getLsbD i = (decide (i < stop - start) && x.getLsbD (start + i)) := by
  rw [fieldOf, BitVec.getLsbD_and, BitVec.getLsbD_ushiftRight, getLsbD_lowOnes (by omega),
    Bool.and_comm]

theorem getLsbD_replaceField (x value : BitVec w) (i : Nat) :
    (replaceField start stop x value).getLsbD i =
      if start ≤ i ∧ i < stop then value.getLsbD (i - start) else x.getLsbD i := by
  rw [replaceField, BitVec.getLsbD_or, BitVec.getLsbD_and, BitVec.getLsbD_and, BitVec.getLsbD_not,
    getLsbD_rangeMask hle, BitVec.getLsbD_shiftLeft]
  by_cases h : start ≤ i ∧ i < stop
  · have hi : i < w := Nat.lt_of_lt_of_le h.2 hle
    simp [h, hi]
  · simpa [h] using fun hset => BitVec.lt_of_getLsbD hset

/-! ## Laws -/

/-- A field reads back what was put into it. -/
theorem fieldOf_replaceField (x value : BitVec w) :
    (fieldOf start stop (replaceField start stop x value)).toNat =
      value.toNat % 2 ^ (stop - start) := by
  refine Nat.eq_of_testBit_eq fun i => ?_
  rw [BitVec.testBit_toNat, getLsbD_fieldOf hle, getLsbD_replaceField hle, Nat.testBit_mod_two_pow,
    BitVec.testBit_toNat, Nat.add_sub_cancel_left]
  by_cases h : i < stop - start
  · rw [if_pos (by omega)]
  · rw [decide_eq_false h, Bool.false_and, Bool.false_and]

/-- Of two values put into one field the last stays. -/
theorem replaceField_replaceField (x value value' : BitVec w) :
    replaceField start stop (replaceField start stop x value) value' =
      replaceField start stop x value' := by
  refine BitVec.eq_of_getLsbD_eq fun i _ => ?_
  simp only [getLsbD_replaceField hle]
  split <;> rfl

/-- Values put into two fields without a common position may be put in either order. -/
theorem replaceField_comm {start' stop' : Nat} (hle' : stop' ≤ w)
    (hdisjoint : stop ≤ start' ∨ stop' ≤ start) (x value value' : BitVec w) :
    replaceField start' stop' (replaceField start stop x value) value' =
      replaceField start stop (replaceField start' stop' x value') value := by
  refine BitVec.eq_of_getLsbD_eq fun i _ => ?_
  simp only [getLsbD_replaceField hle, getLsbD_replaceField hle']
  by_cases h : start ≤ i ∧ i < stop
  · rw [if_pos h, if_pos h, if_neg (by omega)]
  · rw [if_neg h, if_neg h]

end Positions

section Bit

variable {n : Nat} (x : BitVec w) (hn : n < w)
include hn

theorem bit_eq : bit x n = .ok (x.getLsbD n) := by
  rw [bit, shiftLeft, if_pos hn]
  exact congrArg Except.ok (and_one_shiftLeft_ne_zero x hn)

/-- A bit is the field of one position. -/
theorem bit_eq_fieldOf : bit x n = .ok (fieldOf n (n + 1) x != 0) := by
  have hzero : (0 : BitVec w).toNat = 0 := BitVec.toNat_zero
  rw [bit_eq x hn]
  refine congrArg Except.ok (Bool.eq_iff_iff.2 ?_)
  rw [bne_iff_ne, ne_eq, ← BitVec.toNat_inj, toNat_fieldOf (show n + 1 ≤ w from hn),
    ← BitVec.testBit_toNat, Nat.testBit_eq_decide_div_mod_eq, decide_eq_true_iff,
    Nat.add_sub_cancel_left, hzero]
  omega

/-- Setting or clearing a bit replaces the field of one position. -/
theorem insertBit_eq_replaceField (value : Bool) :
    insertBit x n value = .ok (replaceField n (n + 1) x (if value then 1 else 0)) := by
  rw [insertBit, shiftLeft, if_pos hn]
  refine congrArg Except.ok (BitVec.eq_of_getLsbD_eq fun i _ => ?_)
  refine (getLsbD_replaceBit x hn value i).trans ?_
  rw [getLsbD_replaceField hn]
  by_cases h : n = i
  · subst h
    have hw : 0 < w := Nat.zero_lt_of_lt hn
    rw [if_pos rfl, if_pos (by omega), Nat.sub_self]
    cases value <;> simp [hw]
  · rw [if_neg h, if_neg (by omega)]

end Bit

/-- **Fields of a word are what their positions say.** On a range of positions that are in order and
inside the word, however its ends are given, none of the functions faults: no shift reaches the
width, also for the whole word, and no sum of positions leaves the index type. The mask has exactly
the bits of the range. Reading the field of `x` gives the number `x / 2 ^ start` modulo
`2 ^ (stop - start)`. After a write the field reads the low bits of the value and every other bit is
as before; of two writes to one range the last stays, and writes to ranges without a common position
commute. Reading and writing a single bit are the range of that one position. -/
theorem range_exact {indexBits start stop : Nat} {range : BitRange} (hw : w < 2 ^ indexBits)
    (h : range.Spans w start stop) :
    (∃ m : BitVec w, mask indexBits range = .ok m ∧
        ∀ i, m.getLsbD i = decide (start ≤ i ∧ i < stop)) ∧
      (∀ x : BitVec w, ∃ y, extract indexBits range x = .ok y ∧
        y.toNat = x.toNat / 2 ^ start % 2 ^ (stop - start)) ∧
      (∀ x value : BitVec w, ∃ z, insert indexBits range x value = .ok z ∧
        (∃ y, extract indexBits range z = .ok y ∧ y.toNat = value.toNat % 2 ^ (stop - start)) ∧
        (∀ i, ¬(start ≤ i ∧ i < stop) → z.getLsbD i = x.getLsbD i) ∧
        (∀ value', insert indexBits range z value' = insert indexBits range x value') ∧
        ∀ (range' : BitRange) (start' stop' : Nat), range'.Spans w start' stop' →
          stop ≤ start' ∨ stop' ≤ start → ∀ value', ∃ z' both,
            insert indexBits range' x value' = .ok z' ∧
            insert indexBits range z' value = .ok both ∧
            insert indexBits range' z value' = .ok both) ∧
      (stop = start + 1 → ∀ x : BitVec w,
        bit x start = .ok (x.getLsbD start) ∧
        (extract indexBits range x).map (· != 0) = .ok (x.getLsbD start) ∧
        ∀ value, ∃ z, insertBit x start value = .ok z ∧
          insert indexBits range x (if value then 1 else 0) = .ok z) := by
  have hle := h.stop_le
  refine ⟨⟨_, mask_eq hw h, getLsbD_rangeMask hle⟩,
    fun x => ⟨_, extract_eq hw h x, toNat_fieldOf hle x⟩, fun x value => ?_, fun hstop x => ?_⟩
  · refine ⟨_, insert_eq hw h x value, ⟨_, extract_eq hw h _, fieldOf_replaceField hle x value⟩,
      fun i hi => ?_, fun value' => ?_, fun range' start' stop' h' hdisjoint value' => ?_⟩
    · rw [getLsbD_replaceField hle, if_neg hi]
    · rw [insert_eq hw h, insert_eq hw h, replaceField_replaceField hle]
    · refine ⟨_, _, insert_eq hw h' x value', insert_eq hw h _ value, ?_⟩
      rw [insert_eq hw h', replaceField_comm hle h'.stop_le hdisjoint]
  · subst hstop
    have hlt : start < w := hle
    refine ⟨bit_eq x hlt, ?_, fun value =>
      ⟨_, insertBit_eq_replaceField x hlt value, insert_eq hw h x _⟩⟩
    rw [extract_eq hw h x, ← bit_eq x hlt]
    exact (bit_eq_fieldOf x hlt).symm

/-- The upper half of a word of 128 bits, with positions of an index type of eight. -/
theorem range_exact_upper :
    let range : BitRange := ⟨.excluded 63, .unbounded⟩
    128 < 2 ^ 8 ∧ range.Spans 128 64 128 ∧
      (∃ m : BitVec 128, mask 8 range = .ok m ∧ ∀ i, m.getLsbD i = decide (64 ≤ i ∧ i < 128)) ∧
      ∀ x : BitVec 128, ∃ y, extract 8 range x = .ok y ∧ y.toNat = x.toNat / 2 ^ 64 % 2 ^ 64 := by
  intro range
  have hwidth : 128 < 2 ^ 8 := by decide
  have hspans : range.Spans 128 64 128 := ⟨rfl, rfl, by decide, by decide⟩
  obtain ⟨hmask, hextract, -⟩ := range_exact hwidth hspans
  exact ⟨hwidth, hspans, hmask, hextract⟩

end BitField

/-! ## Words -/

section Word

variable (x : UInt32) {p start length : UInt32}

theorem bit_testBit32 (hp : p.toNat < 32) :
    BitField.bit x.toBitVec p.toNat = .ok (testBit32 x p) := by
  rw [BitField.bit_eq _ hp, testBit32_eq, Nat.mod_eq_of_lt hp]
  rfl

theorem insertBit_putBit32 (hp : p.toNat < 32) (value : Bool) :
    BitField.insertBit x.toBitVec p.toNat value = .ok (putBit32 x p value).toBitVec := by
  have hone : ((1 : UInt32) <<< p).toBitVec = 1#32 <<< (p.toNat % 32) :=
    UInt32.toBitVec_shiftLeft ..
  rw [Nat.mod_eq_of_lt hp] at hone
  rw [BitField.insertBit, BitField.shiftLeft, if_pos hp, putBit32]
  show Except.ok
    (x.toBitVec &&& ~~~(1#32 <<< p.toNat) ||| if value then 1#32 <<< p.toNat else 0) = _
  rw [← hone]
  cases value <;> rfl

/-- A field of a word is read as a range. -/
theorem extract_field32 (hpos : 0 < length.toNat) (hlength : length < 32)
    (hfit : start.toNat + length.toNat ≤ 32) :
    BitField.extract 32 ⟨.included start.toNat, .excluded (start.toNat + length.toNat)⟩ x.toBitVec =
      .ok (field32 x start length).toBitVec := by
  have hspans : BitRange.Spans ⟨.included start.toNat, .excluded (start.toNat + length.toNat)⟩ 32
      start.toNat (start.toNat + length.toNat) := ⟨rfl, rfl, by omega, hfit⟩
  have hstart : start < 32 := UInt32.lt_iff_toNat_lt.2 (by show start.toNat < 32; omega)
  rw [BitField.extract_eq (by decide) hspans]
  refine congrArg Except.ok (BitVec.eq_of_toNat_eq ?_)
  rw [BitField.toNat_fieldOf hfit, Nat.add_sub_cancel_left]
  exact (toNat_field32 x hstart hlength).symm

end Word

end R5900
