import R5900.Proofs.BitField
import R5900.Proofs.Bytes

/-!
# Bytes by address

A `ByteMap` is a flat array of bytes over the address space. Numbers of any length are loaded and
stored little-endian (`ByteMap.load`, `ByteMap.store`).

* `ByteMap.load_add` and `ByteMap.store_add`: a long access is the accesses to its two parts.
* `ByteMap.load_part` and `ByteMap.store_part`: a short access is one to a longer number around it,
  which loads the digits and, to store some of them, keeps the others.
-/

namespace R5900

/-! ## Digits and their bits -/

theorem ofDigitFn_lt (f : Nat → UInt8) (n : Nat) : ofDigitFn f n < 256 ^ n := by
  induction n with
  | zero => exact Nat.one_pos
  | succ n ih =>
    have hbyte : (f n).toNat + 1 ≤ 256 := (f n).toNat_lt
    rw [ofDigitFn_add, ofDigitFn_one]
    calc ofDigitFn f n + 256 ^ n * (f (n + 0)).toNat
        < 256 ^ n + 256 ^ n * (f n).toNat := Nat.add_lt_add_right ih _
      _ = 256 ^ n * ((f n).toNat + 1) := by rw [Nat.mul_succ, Nat.add_comm]
      _ ≤ 256 ^ n * 256 := Nat.mul_le_mul_left _ hbyte
      _ = 256 ^ (n + 1) := (Nat.pow_succ ..).symm

/-- The digits of a number are the bytes that it is put together from. -/
theorem digit_ofDigitFn (f : Nat → UInt8) {n i : Nat} (h : i < n) :
    digit (ofDigitFn f n) i = f i := by
  obtain ⟨k, rfl⟩ : ∃ k, n = i + (1 + k) := ⟨n - i - 1, by omega⟩
  have hlow := ofDigitFn_lt f i
  rw [digit, ofDigitFn_add, ofDigitFn_add, ofDigitFn_one,
    Nat.add_mul_div_left _ _ (Nat.pow_pos (by decide)), Nat.div_eq_of_lt hlow, Nat.zero_add]
  refine UInt8.toNat_inj.1 ?_
  rw [UInt8.toNat_ofNat', Nat.pow_one]
  show ((f (i + 0)).toNat + 256 * _) % 256 = (f i).toNat
  rw [Nat.add_mul_mod_self_left, Nat.add_zero]
  exact Nat.mod_eq_of_lt (f i).toNat_lt

theorem testBit_digit (n i j : Nat) :
    (digit n i).toNat.testBit j = (decide (j < 8) && n.testBit (8 * i + j)) := by
  have hpow : 256 ^ i = 2 ^ (8 * i) := (Nat.pow_mul 2 8 i).symm
  rw [digit, UInt8.toNat_ofNat', Nat.testBit_mod_two_pow, hpow, Nat.testBit_div_two_pow,
    Nat.add_comm j]

/-- Digits with the same bits are equal. -/
theorem digit_eq_of_testBit {m n i k : Nat}
    (h : ∀ j, j < 8 → m.testBit (8 * i + j) = n.testBit (8 * k + j)) : digit m i = digit n k := by
  refine UInt8.toNat_inj.1 (Nat.eq_of_testBit_eq fun j => ?_)
  rw [testBit_digit, testBit_digit]
  by_cases hj : j < 8
  · rw [h j hj]
  · rw [decide_eq_false hj, Bool.false_and, Bool.false_and]

/-! ## Byte maps -/

/-- A byte at every address. -/
def ByteMap : Type := UInt32 → UInt8

namespace ByteMap

/-- The number with the `length` bytes from an address up as its digits, lowest first. -/
def load (f : ByteMap) (a : UInt32) (length : Nat) : Nat :=
  ofDigitFn (fun i => f (a + UInt32.ofNat i)) length

/-- Replace the `length` bytes from an address up by the digits of a number, lowest first. -/
def store (f : ByteMap) (a : UInt32) (length n : Nat) : ByteMap := fun a' =>
  if a.toNat ≤ a'.toNat ∧ a'.toNat < a.toNat + length then digit n (a'.toNat - a.toNat) else f a'

variable {f : ByteMap} {a : UInt32} {k length total n : Nat}

theorem toNat_add_ofNat (hk : a.toNat + k < 2 ^ 32) :
    (a + UInt32.ofNat k).toNat = a.toNat + k := by
  rw [UInt32.toNat_add, UInt32.toNat_ofNat_of_lt' (show k < 2 ^ 32 by omega), Nat.mod_eq_of_lt hk]

theorem digit_load {i : Nat} (h : i < length) :
    digit (f.load a length) i = f (a + UInt32.ofNat i) :=
  digit_ofDigitFn _ h

/-- A number whose digits are the bytes is what is loaded. -/
theorem eq_load_of_digits (hn : n < 256 ^ length)
    (h : ∀ i, i < length → digit n i = f (a + UInt32.ofNat i)) : n = f.load a length := by
  rw [load, ← ofDigitFn_congr h, ofDigitFn_digit, Nat.mod_eq_of_lt hn]

/-- What is loaded depends on the bytes that are loaded only. -/
theorem load_congr {g : ByteMap} (hk : a.toNat + length ≤ 2 ^ 32)
    (h : ∀ a' : UInt32, a.toNat ≤ a'.toNat → a'.toNat < a.toNat + length → f a' = g a') :
    f.load a length = g.load a length := by
  refine ofDigitFn_congr fun i hi => ?_
  have hbyte : (a + UInt32.ofNat i).toNat = a.toNat + i := toNat_add_ofNat (by omega)
  exact h _ (by omega) (by omega)

/-- What is loaded from an address up is what is loaded from two places in a row. -/
theorem load_add (k length : Nat) :
    f.load a (k + length) = f.load a k + 256 ^ k * f.load (a + UInt32.ofNat k) length := by
  rw [load, ofDigitFn_add]
  congr 2
  refine ofDigitFn_congr fun i _ => ?_
  rw [UInt32.ofNat_add, UInt32.add_assoc]

/-- The bytes in the middle of a number that is loaded. -/
theorem load_part (h : k + length ≤ total) :
    f.load (a + UInt32.ofNat k) length = f.load a total / 256 ^ k % 256 ^ length := by
  rw [← ofDigitFn_digit]
  refine (ofDigitFn_congr fun i hi => ?_).symm
  rw [digit_div, digit_load (by omega), UInt32.ofNat_add, UInt32.add_assoc]

/-- What is stored in two places in a row is stored at once. -/
theorem store_add {low high : Nat} (hk : a.toNat + k < 2 ^ 32) (hlow : low < 256 ^ k) :
    (f.store a k low).store (a + UInt32.ofNat k) length high =
      f.store a (k + length) (low + 256 ^ k * high) := by
  have hmod : (low + 256 ^ k * high) % 256 ^ k = low := by
    rw [Nat.add_mul_mod_self_left, Nat.mod_eq_of_lt hlow]
  have hdiv : (low + 256 ^ k * high) / 256 ^ k = high := by
    rw [Nat.add_mul_div_left _ _ (Nat.pow_pos (by decide)), Nat.div_eq_of_lt hlow, Nat.zero_add]
  funext a'
  simp only [store, toNat_add_ofNat hk]
  by_cases hhigh : a.toNat + k ≤ a'.toNat ∧ a'.toNat < a.toNat + k + length
  · have hdigit := digit_div (low + 256 ^ k * high) k (a'.toNat - (a.toNat + k))
    rw [hdiv] at hdigit
    rw [if_pos hhigh, if_pos (by omega), hdigit]
    congr 1
    omega
  · rw [if_neg hhigh]
    by_cases hin : a.toNat ≤ a'.toNat ∧ a'.toNat < a.toNat + k
    · have hlt : a'.toNat - a.toNat < k := by omega
      rw [if_pos hin, if_pos (by omega), ← digit_mod (low + 256 ^ k * high) hlt, hmod]
    · rw [if_neg hin, if_neg (by omega)]

/-- Some digits are stored by storing a longer number that keeps the others. -/
theorem store_part {m : Nat} (hk : a.toNat + total ≤ 2 ^ 32) (h : k + length ≤ total)
    (hpos : 0 < length)
    (hdigits : ∀ i, i < total → digit m i =
      if k ≤ i ∧ i < k + length then digit n (i - k) else f (a + UInt32.ofNat i)) :
    f.store a total m = f.store (a + UInt32.ofNat k) length n := by
  have hstart : (a + UInt32.ofNat k).toNat = a.toNat + k := toNat_add_ofNat (by omega)
  funext a'
  simp only [store, hstart]
  by_cases htotal : a.toNat ≤ a'.toNat ∧ a'.toNat < a.toNat + total
  · have haddress : a + UInt32.ofNat (a'.toNat - a.toNat) = a' := by
      rw [← UInt32.toNat_inj, toNat_add_ofNat (by omega)]
      omega
    rw [if_pos htotal, hdigits _ (by omega), haddress]
    by_cases hin : a.toNat + k ≤ a'.toNat ∧ a'.toNat < a.toNat + k + length
    · rw [if_pos (by omega), if_pos hin]
      congr 1
      omega
    · rw [if_neg (by omega), if_neg hin]
  · rw [if_neg htotal, if_neg (by omega)]

end ByteMap

/-! ## Replacing a lane of a word -/

/-- A word or doubleword with a lane of `length` bytes replaced has the digits of the new value
there, and its own digits elsewhere. -/
theorem digit_replaceLane {w k length : Nat} (x mask value : BitVec w)
    (hmask : mask.toNat = 2 ^ (8 * length) - 1) (hvalue : value.toNat < 2 ^ (8 * length))
    {i : Nat} (hi : 8 * i + 8 ≤ w) :
    digit (x &&& ~~~(mask <<< (8 * k)) ||| value <<< (8 * k)).toNat i =
      if k ≤ i ∧ i < k + length then digit value.toNat (i - k) else digit x.toNat i := by
  have hones : ∀ j, mask.getLsbD j = decide (j < 8 * length) := fun j => by
    rw [← BitVec.testBit_toNat, hmask, Nat.testBit_two_pow_sub_one]
  have hhigh : ∀ j, 8 * length ≤ j → value.getLsbD j = false := fun j hj => by
    rw [← BitVec.testBit_toNat, Nat.testBit_lt_two_pow
      (Nat.lt_of_lt_of_le hvalue (Nat.pow_le_pow_right (by decide) hj))]
  split
  · refine digit_eq_of_testBit fun j hj => ?_
    have hpos : 8 * i + j - 8 * k = 8 * (i - k) + j := by omega
    rw [BitVec.testBit_toNat, BitVec.getLsbD_or, BitVec.getLsbD_and, BitVec.getLsbD_not,
      BitVec.getLsbD_shiftLeft, BitVec.getLsbD_shiftLeft, hones, hpos, BitVec.testBit_toNat,
      decide_eq_true (show 8 * i + j < w by omega), decide_eq_false (show ¬8 * i + j < 8 * k by omega),
      decide_eq_true (show 8 * (i - k) + j < 8 * length by omega)]
    simp
  · refine digit_eq_of_testBit fun j hj => ?_
    have hlane : (decide (8 * i + j < w) && !decide (8 * i + j < 8 * k) &&
        value.getLsbD (8 * i + j - 8 * k)) = false := by
      by_cases hlow : 8 * i + j < 8 * k
      · simp [hlow]
      · rw [hhigh _ (by omega), Bool.and_false]
    have hout : (decide (8 * i + j < w) && !decide (8 * i + j < 8 * k) &&
        decide (8 * i + j - 8 * k < 8 * length)) = false := by
      by_cases hlow : 8 * i + j < 8 * k
      · simp [hlow]
      · rw [decide_eq_false (show ¬8 * i + j - 8 * k < 8 * length by omega), Bool.and_false]
    rw [BitVec.testBit_toNat, BitVec.getLsbD_or, BitVec.getLsbD_and, BitVec.getLsbD_not,
      BitVec.getLsbD_shiftLeft, BitVec.getLsbD_shiftLeft, hones, hlane, hout,
      decide_eq_true (show 8 * i + j < w by omega), BitVec.testBit_toNat]
    simp

section Lane

variable {k length i : Nat}

theorem digit_replaceLane32 {x mask value lane : UInt32} (hlane : lane.toNat = 8 * k) (hk : k < 4)
    (hmask : mask.toNat = 2 ^ (8 * length) - 1) (hvalue : value.toNat < 2 ^ (8 * length))
    (hi : i < 4) :
    digit (x &&& ~~~(mask <<< lane) ||| value <<< lane).toNat i =
      if k ≤ i ∧ i < k + length then digit value.toNat (i - k) else digit x.toNat i := by
  have hshift : lane.toNat % 32 = 8 * k := by omega
  have hword : (x &&& ~~~(mask <<< lane) ||| value <<< lane).toBitVec =
      x.toBitVec &&& ~~~(mask.toBitVec <<< (lane.toNat % 32)) |||
        value.toBitVec <<< (lane.toNat % 32) := rfl
  rw [hshift] at hword
  exact (congrArg (digit ·.toNat i) hword).trans
    (digit_replaceLane _ mask.toBitVec value.toBitVec hmask hvalue (by omega))

theorem digit_replaceLane64 {x mask value lane : UInt64} (hlane : lane.toNat = 8 * k) (hk : k < 8)
    (hmask : mask.toNat = 2 ^ (8 * length) - 1) (hvalue : value.toNat < 2 ^ (8 * length))
    (hi : i < 8) :
    digit (x &&& ~~~(mask <<< lane) ||| value <<< lane).toNat i =
      if k ≤ i ∧ i < k + length then digit value.toNat (i - k) else digit x.toNat i := by
  have hshift : lane.toNat % 64 = 8 * k := by omega
  have hword : (x &&& ~~~(mask <<< lane) ||| value <<< lane).toBitVec =
      x.toBitVec &&& ~~~(mask.toBitVec <<< (lane.toNat % 64)) |||
        value.toBitVec <<< (lane.toNat % 64) := rfl
  rw [hshift] at hword
  exact (congrArg (digit ·.toNat i) hword).trans
    (digit_replaceLane _ mask.toBitVec value.toBitVec hmask hvalue (by omega))

end Lane

end R5900
