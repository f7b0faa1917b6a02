import Mathlib.Data.Nat.Digits.Defs
import R5900.Memory

/-!
# Numbers and bytes

A value of any width spells a number (`Width.number`), whose base-256 digits are its bytes.

* `Width.number_ofByteFn`: the value put together from bytes spells the number with these digits.
* `Memory.puts_put`: a value that is put into a memory leaves its digits at the bytes from the
  offset up, and every other byte as it was.
-/

namespace R5900

/-- The number that a value spells. -/
def Width.number (w : Width) (value : w.Value) : Nat := (w.toQuad value).toNat

theorem Quad.toNat_ofLow (x : UInt64) : (Quad.ofLow x).toNat = x.toNat := by
  rw [toNat, ofLow, UInt64.toNat_zero, Nat.zero_mul, Nat.zero_add]

@[simp] theorem Width.number_byte (value : UInt8) : number .byte value = value.toNat :=
  Quad.toNat_ofLow _

@[simp] theorem Width.number_half (value : UInt16) : number .half value = value.toNat :=
  Quad.toNat_ofLow _

@[simp] theorem Width.number_word (value : UInt32) : number .word value = value.toNat :=
  Quad.toNat_ofLow _

@[simp] theorem Width.number_double (value : UInt64) : number .double value = value.toNat :=
  Quad.toNat_ofLow _

/-- The digit of weight `256 ^ i` of a number. -/
def digit (n i : Nat) : UInt8 := UInt8.ofNat (n / 256 ^ i)

/-! ## Digits -/

theorem digit_zero (n : Nat) : digit n 0 = UInt8.ofNat n := by
  rw [digit, Nat.pow_zero, Nat.div_one]

/-- The digits of a number without its lowest ones. -/
theorem digit_div (n k i : Nat) : digit (n / 256 ^ k) i = digit n (k + i) := by
  rw [digit, digit, Nat.div_div_eq_div_mul, Nat.pow_add]

/-- The lowest digits of a number. -/
theorem digit_mod (n : Nat) {k i : Nat} (h : i < k) : digit (n % 256 ^ k) i = digit n i := by
  refine UInt8.toNat_inj.1 ?_
  obtain ⟨j, rfl⟩ : ∃ j, k = i + (j + 1) := ⟨k - i - 1, by omega⟩
  rw [digit, digit, UInt8.toNat_ofNat', UInt8.toNat_ofNat', Nat.pow_add, Nat.mod_mul_right_div_self,
    Nat.pow_succ, Nat.mul_comm]
  exact Nat.mod_mul_right_mod ..

/-! ## Putting bytes together -/

/-- A byte that is put above the bits of a word is added with its weight. -/
theorem toNat_or_byte {x n : UInt32} (b : UInt8) {k : Nat} (hn : n.toNat = k) (hk : k ≤ 24)
    (hx : x.toNat < 2 ^ k) : (x ||| b.toUInt32 <<< n).toNat = x.toNat + b.toNat * 2 ^ k := by
  have hshift : n.toNat % 32 = k := by omega
  have hlt : b.toNat * 2 ^ k < 2 ^ 32 :=
    calc b.toNat * 2 ^ k
        < 2 ^ 8 * 2 ^ k := Nat.mul_lt_mul_of_pos_right b.toNat_lt (Nat.two_pow_pos k)
      _ = 2 ^ (8 + k) := (Nat.pow_add 2 8 k).symm
      _ ≤ 2 ^ 32 := Nat.pow_le_pow_right (by decide) (by omega)
  rw [UInt32.toNat_or, UInt32.toNat_shiftLeft, hshift, UInt8.toNat_toUInt32, Nat.shiftLeft_eq,
    Nat.mod_eq_of_lt hlt, Nat.or_comm, ← Nat.shiftLeft_eq, ← Nat.shiftLeft_add_eq_or_of_lt hx,
    Nat.shiftLeft_eq, Nat.add_comm]

theorem toNat_joinHalf (a b : UInt8) : (joinHalf a b).toNat = a.toNat + b.toNat * 2 ^ 8 := by
  have ha := a.toNat_lt
  have hb := b.toNat_lt
  rw [joinHalf, UInt16.toNat_or, UInt16.toNat_shiftLeft, UInt8.toNat_toUInt16, UInt8.toNat_toUInt16]
  show a.toNat ||| b.toNat <<< 8 % 2 ^ 16 = _
  rw [Nat.mod_eq_of_lt (by rw [Nat.shiftLeft_eq]; omega), Nat.or_comm,
    ← Nat.shiftLeft_add_eq_or_of_lt ha, Nat.shiftLeft_eq, Nat.add_comm]

theorem toNat_joinWord (a b c d : UInt8) :
    (joinWord a b c d).toNat =
      a.toNat + b.toNat * 2 ^ 8 + c.toNat * 2 ^ 16 + d.toNat * 2 ^ 24 := by
  have ha : a.toUInt32.toNat < 2 ^ 8 := a.toNat_lt
  have hb := b.toNat_lt
  have hc := c.toNat_lt
  have hab := toNat_or_byte b (n := 8) (k := 8) rfl (by decide) ha
  have hab' : (a.toUInt32 ||| b.toUInt32 <<< 8).toNat < 2 ^ 16 := by rw [hab]; omega
  have habc := toNat_or_byte c (n := 16) (k := 16) rfl (by decide) hab'
  have habc' : (a.toUInt32 ||| b.toUInt32 <<< 8 ||| c.toUInt32 <<< 16).toNat < 2 ^ 24 := by
    rw [habc, hab]
    omega
  rw [joinWord, toNat_or_byte d (n := 24) (k := 24) rfl (by decide) habc', habc, hab,
    UInt8.toNat_toUInt32]

theorem toNat_toUInt8_shiftRight (x n : UInt32) :
    (x >>> n).toUInt8.toNat = x.toNat / 2 ^ (n.toNat % 32) % 256 := by
  rw [UInt32.toNat_toUInt8, UInt32.toNat_shiftRight, Nat.shiftRight_eq_div_pow]

theorem toNat_joinDouble (low high : UInt32) :
    (joinDouble low high).toNat = low.toNat + high.toNat * 2 ^ 32 := by
  have hlow := low.toNat_lt
  have hhigh := high.toNat_lt
  rw [joinDouble, UInt64.toNat_or, UInt64.toNat_shiftLeft, UInt32.toNat_toUInt64,
    UInt32.toNat_toUInt64]
  show (high.toNat <<< 32 % 2 ^ 64 ||| low.toNat) = _
  rw [Nat.mod_eq_of_lt (by rw [Nat.shiftLeft_eq]; omega), ← Nat.shiftLeft_add_eq_or_of_lt hlow,
    Nat.shiftLeft_eq, Nat.add_comm]

/-- The number with the digits `f 0` to `f (n - 1)`, lowest first. -/
def ofDigitFn (f : Nat → UInt8) (n : Nat) : Nat :=
  Nat.ofDigits 256 ((List.range n).map fun i => (f i).toNat)

theorem ofDigitFn_congr {f g : Nat → UInt8} {n : Nat} (h : ∀ i, i < n → f i = g i) :
    ofDigitFn f n = ofDigitFn g n :=
  congrArg _ (List.map_congr_left fun i hi => congrArg _ (h i (List.mem_range.1 hi)))

theorem ofDigitFn_add (f : Nat → UInt8) (m n : Nat) :
    ofDigitFn f (m + n) = ofDigitFn f m + 256 ^ m * ofDigitFn (fun i => f (m + i)) n := by
  rw [ofDigitFn, List.range_add, List.map_append, Nat.ofDigits_append, List.length_map,
    List.length_range, List.map_map]
  rfl

theorem ofDigitFn_one (f : Nat → UInt8) : ofDigitFn f 1 = (f 0).toNat := Nat.ofDigits_singleton ..

/-- The lowest digits of a number make up its remainder. -/
theorem ofDigitFn_digit (n k : Nat) : ofDigitFn (digit n) k = n % 256 ^ k := by
  induction k generalizing n with
  | zero => exact (Nat.mod_one n).symm
  | succ k ih =>
    have hrest : (fun i => digit n (1 + i)) = digit (n / 256) :=
      funext fun i => (digit_div n 1 i).symm
    rw [Nat.add_comm, ofDigitFn_add, ofDigitFn_one, digit_zero, hrest, ih, Nat.pow_add, Nat.mod_mul]
    rfl

theorem toNat_joinWord_digits (f : Nat → UInt8) :
    (joinWord (f 0) (f 1) (f 2) (f 3)).toNat = ofDigitFn f 4 := by
  rw [toNat_joinWord, ofDigitFn_add f 1 3, ofDigitFn_add _ 1 2, ofDigitFn_add _ 1 1]
  simp only [ofDigitFn_one, Nat.reduceAdd]
  omega

theorem toNat_joinDouble_digits (f : Nat → UInt8) :
    (joinDouble (joinWord (f 0) (f 1) (f 2) (f 3)) (joinWord (f 4) (f 5) (f 6) (f 7))).toNat =
      ofDigitFn f 8 := by
  rw [toNat_joinDouble, toNat_joinWord_digits f, toNat_joinWord_digits fun i => f (4 + i),
    ofDigitFn_add f 4 4]
  omega

/-- **A value put together from bytes spells the number with these digits**, lowest first. -/
theorem Width.number_ofByteFn (w : Width) (f : Nat → UInt8) :
    w.number (w.ofByteFn f) = ofDigitFn f w.bytes := by
  cases w with
  | byte => exact (Quad.toNat_ofLow _).trans (ofDigitFn_one f).symm
  | half =>
    refine (Quad.toNat_ofLow _).trans ((toNat_joinHalf ..).trans ?_)
    rw [bytes, ofDigitFn_add f 1 1, ofDigitFn_one, ofDigitFn_one, Nat.mul_comm]
    rfl
  | word => exact (Quad.toNat_ofLow _).trans (toNat_joinWord_digits f)
  | double => exact (Quad.toNat_ofLow _).trans (toNat_joinDouble_digits f)
  | quad =>
    have hlow := toNat_joinDouble_digits f
    have hhigh := toNat_joinDouble_digits fun i => f (8 + i)
    rw [bytes, ofDigitFn_add f 8 8, ← hlow, ← hhigh, Nat.add_comm, Nat.mul_comm]
    rfl

/-! ## Taking values apart -/

namespace Memory

variable {size : Nat} {m m₁ m₂ : Memory size} {offset : Nat}

/-- From the memory `m` to the memory `m₁`, the `length` bytes from an offset up have become the
digits of a number, and no other byte has changed. -/
def Puts (m m₁ : Memory size) (offset length n : Nat) : Prop :=
  ∀ j, m₁.byte j =
    if offset ≤ j ∧ j < offset + length then digit n (j - offset) else m.byte j

theorem puts_setByte (v : UInt8) (h : offset < size) :
    m.Puts (m.setByte offset v) offset 1 v.toNat := by
  intro j
  rw [byte_setByte m h]
  by_cases hj : j = offset
  · rw [if_pos hj, if_pos (by omega), hj, Nat.sub_self, digit_zero, UInt8.ofNat_toNat]
  · rw [if_neg hj, if_neg (by omega)]

/-- Digits that are put above digits make one number with them. -/
theorem Puts.append {length length' low high n : Nat} (h : m.Puts m₁ offset length low)
    (h' : m₁.Puts m₂ (offset + length) length' high) (hlow : low < 256 ^ length)
    (hn : n = low + 256 ^ length * high) : m.Puts m₂ offset (length + length') n := by
  have hmod : n % 256 ^ length = low := by rw [hn, Nat.add_mul_mod_self_left, Nat.mod_eq_of_lt hlow]
  have hdiv : n / 256 ^ length = high := by
    rw [hn, Nat.add_mul_div_left _ _ (Nat.pow_pos (by decide)), Nat.div_eq_of_lt hlow, Nat.zero_add]
  intro j
  rw [h' j, h j]
  by_cases hhigh : offset + length ≤ j ∧ j < offset + length + length'
  · rw [if_pos hhigh, if_pos (by omega), ← hdiv, digit_div]
    congr 1
    omega
  · rw [if_neg hhigh]
    by_cases hlow' : offset ≤ j ∧ j < offset + length
    · rw [if_pos hlow', if_pos (by omega), ← hmod, digit_mod n (by omega)]
    · rw [if_neg hlow', if_neg (by omega)]

theorem puts_putWord (value : UInt32) (h : offset + 4 ≤ size) :
    m.Puts (m.putWord offset value) offset 4 value.toNat := by
  have hlast := value.toNat_lt
  have h8 : (value >>> 8).toUInt8.toNat = value.toNat / 256 % 256 :=
    toNat_toUInt8_shiftRight ..
  have h16 : (value >>> 16).toUInt8.toNat = value.toNat / 65536 % 256 :=
    toNat_toUInt8_shiftRight ..
  have h24 : (value >>> 24).toUInt8.toNat = value.toNat / 16777216 % 256 :=
    toNat_toUInt8_shiftRight ..
  have h0 : value.toUInt8.toNat = value.toNat % 256 := UInt32.toNat_toUInt8 value
  have hhalf := (puts_setByte (m := m) value.toUInt8 (show offset < size by omega)).append
    (puts_setByte (value >>> 8).toUInt8 (show offset + 1 < size by omega))
    (n := value.toNat % 65536) (by omega) (by omega)
  have hthree := hhalf.append
    (puts_setByte (value >>> 16).toUInt8 (show offset + 2 < size by omega))
    (n := value.toNat % 16777216) (by omega) (by omega)
  exact hthree.append (puts_setByte (value >>> 24).toUInt8 (show offset + 3 < size by omega))
    (by omega) (by omega)

theorem puts_putDouble (value : UInt64) (h : offset + 8 ≤ size) :
    m.Puts (m.putDouble offset value) offset 8 value.toNat := by
  have hlow : value.toUInt32.toNat = value.toNat % 2 ^ 32 := UInt64.toNat_toUInt32 value
  have hhigh : (value >>> 32).toUInt32.toNat = value.toNat / 2 ^ 32 % 2 ^ 32 := by
    rw [UInt64.toNat_toUInt32, UInt64.toNat_shiftRight, Nat.shiftRight_eq_div_pow]
    rfl
  have hlast := value.toNat_lt
  exact (puts_putWord value.toUInt32 (show offset + 4 ≤ size by omega)).append
    (puts_putWord (value >>> 32).toUInt32 (show offset + 4 + 4 ≤ size by omega))
    (by omega) (by omega)

/-- **A value that is put into a memory leaves its digits there**, and every other byte as it
was. -/
theorem puts_put (w : Width) (value : w.Value) (h : offset + w.bytes ≤ size) :
    m.Puts (m.put w offset value) offset w.bytes (w.number value) := by
  cases w with
  | byte =>
    rw [Width.number_byte]
    exact puts_setByte _ h
  | half =>
    have hhigh : (UInt16.toUInt8 ((value : UInt16) >>> 8)).toNat = UInt16.toNat value / 256 := by
      rw [UInt16.toNat_toUInt8, UInt16.toNat_shiftRight, Nat.shiftRight_eq_div_pow]
      have hlast := UInt16.toNat_lt value
      show UInt16.toNat value / 2 ^ 8 % 2 ^ 8 = UInt16.toNat value / 256
      omega
    have hlow : (UInt16.toUInt8 value).toNat = UInt16.toNat value % 256 :=
      UInt16.toNat_toUInt8 value
    have hfit : offset + 2 ≤ size := h
    rw [Width.number_half]
    exact (puts_setByte _ (show offset < size by omega)).append
      (puts_setByte _ (show offset + 1 < size by omega)) (by omega) (by omega)
  | word =>
    rw [Width.number_word]
    exact puts_putWord _ h
  | double =>
    rw [Width.number_double]
    exact puts_putDouble _ h
  | quad =>
    have hfit : offset + 16 ≤ size := h
    have hlow := UInt64.toNat_lt (Quad.lo value)
    exact (puts_putDouble _ (show offset + 8 ≤ size by omega)).append
      (puts_putDouble _ (show offset + 8 + 8 ≤ size by omega)) hlow
      ((Nat.add_comm ..).trans (congrArg _ (Nat.mul_comm ..)))

/-- The value at an offset spells the number with the bytes from there up as its digits. -/
theorem number_get (w : Width) (offset : Nat) :
    w.number (m.get w offset) = ofDigitFn (fun i => m.byte (offset + i)) w.bytes :=
  w.number_ofByteFn _

theorem toNat_get_word (offset : Nat) :
    UInt32.toNat (m.get .word offset) = ofDigitFn (fun i => m.byte (offset + i)) 4 :=
  (Width.number_word _).symm.trans (number_get .word offset)

/-- A word that is put into a memory is what the memory holds there. -/
theorem get_putWord_self (value : UInt32) (h : offset + 4 ≤ size) :
    (m.putWord offset value).get .word offset = value := by
  have hbytes : ∀ i, i < 4 → (m.putWord offset value).byte (offset + i) = digit value.toNat i := by
    intro i hi
    rw [puts_putWord value h, if_pos (by omega), Nat.add_sub_cancel_left]
  apply UInt32.toNat_inj.1
  rw [toNat_get_word, ofDigitFn_congr hbytes, ofDigitFn_digit]
  exact Nat.mod_eq_of_lt value.toNat_lt

/-- Words that do not overlap a word that is put into a memory are as before. -/
theorem get_putWord_of_disjoint (value : UInt32) {offset' : Nat} (h : offset + 4 ≤ size)
    (hdisjoint : offset' + 4 ≤ offset ∨ offset + 4 ≤ offset') :
    (m.putWord offset value).get .word offset' = m.get .word offset' := by
  have hbytes : ∀ i, i < 4 → (m.putWord offset value).byte (offset' + i) = m.byte (offset' + i) :=
    fun i hi => by rw [puts_putWord value h, if_neg (by omega)]
  apply UInt32.toNat_inj.1
  rw [toNat_get_word, ofDigitFn_congr hbytes, ← toNat_get_word]

end Memory

end R5900
