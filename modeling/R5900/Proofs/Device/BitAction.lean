import R5900.Proofs.Bytes
import R5900.Proofs.Device.NarrowWrite

/-!
# Bits that act when one is stored into them

Some bits of registers do not hold what is written: a stored one clears or toggles them, and a stored
zero does nothing. What a write of some width stores into a bit of a word is the bit of its value at
that place of the address space, and zero if the write does not reach it (`Width.storedBit`).

* `Peripheral.ActsOnBit`: what a word written to a device does to such a bit.
* `Peripheral.ActsOnBit.write`: so does an aligned write of any width, by what it stores into the
  bit. A narrow write to another lane stores a zero into the bit, because it is not carried over, and
  of a wide write only one word is written to the register.
-/

namespace R5900

/-! ## Stored bits -/

/-- What a write at an address stores into the bit `p` of the word at `a`: the bit of its value that
lies there, and zero if none does. -/
def Width.storedBit (w : Width) (address : UInt32) (value : w.Value) (a p : UInt32) : Bool :=
  decide (8 * address.toNat ≤ 8 * a.toNat + p.toNat) &&
    (w.number value).testBit (8 * a.toNat + p.toNat - 8 * address.toNat)

theorem Width.number_lt (w : Width) (value : w.Value) : w.number value < 2 ^ (8 * w.bytes) := by
  cases w with
  | byte => exact (number_byte value).symm ▸ UInt8.toNat_lt value
  | half => exact (number_half value).symm ▸ UInt16.toNat_lt value
  | word => exact (number_word value).symm ▸ UInt32.toNat_lt value
  | double => exact (number_double value).symm ▸ UInt64.toNat_lt value
  | quad =>
    have hlow := UInt64.toNat_lt (Quad.lo value)
    have hhigh := UInt64.toNat_lt (Quad.hi value)
    show UInt64.toNat (Quad.hi value) * 2 ^ 64 + UInt64.toNat (Quad.lo value) < 2 ^ 128
    omega

/-- The low word of a doubleword has its lowest bits. -/
theorem testBit32_low {x : UInt64} {p : UInt32} (hp : p < 32) :
    testBit32 x.toUInt32 p = x.toNat.testBit p.toNat := by
  have hp : p.toNat < 32 := hp
  rw [testBit32_eq, Nat.mod_eq_of_lt hp, UInt64.toNat_toUInt32, Nat.testBit_mod_two_pow,
    decide_eq_true hp, Bool.true_and]

/-- The low doubleword of a quadword has its lowest bits. -/
theorem Width.testBit_number_quad (value : Quad) {p : UInt32} (hp : p < 32) :
    (number .quad value).testBit p.toNat = value.lo.toNat.testBit p.toNat := by
  have hp : p.toNat < 64 := Nat.lt_trans hp (by decide)
  have hnumber : number .quad value = 2 ^ 64 * value.hi.toNat + value.lo.toNat :=
    congrArg (· + value.lo.toNat) (Nat.mul_comm ..)
  rw [hnumber, Nat.testBit_two_pow_mul_add _ value.lo.toNat_lt, if_pos hp]

section StoredBit

variable {w : Width} {address a p : UInt32}

theorem Width.storedBit_self (value : w.Value) :
    w.storedBit a value a p = (w.number value).testBit p.toNat := by
  rw [storedBit, decide_eq_true (Nat.le_add_right _ _), Bool.true_and, Nat.add_sub_cancel_left]

/-- A write that stores a one reaches the word. -/
theorem Width.reaches_of_storedBit {value : w.Value} (hp : p < 32)
    (h : w.storedBit address value a p = true) :
    address.toNat < a.toNat + 4 ∧ a.toNat < address.toNat + w.bytes := by
  have hp : p.toNat < 32 := hp
  obtain ⟨hle, hbit⟩ := (Bool.and_eq_true _ _).mp h
  have hle := of_decide_eq_true hle
  have hlt : 8 * a.toNat + p.toNat - 8 * address.toNat < 8 * w.bytes :=
    Nat.lt_of_not_le fun hge => by
      rw [Nat.testBit_lt_two_pow (Nat.lt_of_lt_of_le (w.number_lt value)
        (Nat.pow_le_pow_right (by decide) hge))] at hbit
      cases hbit
  omega

theorem Width.storedBit_of_disjoint (value : w.Value) (hp : p < 32)
    (h : ¬(address.toNat < a.toNat + 4 ∧ a.toNat < address.toNat + w.bytes)) :
    w.storedBit address value a p = false :=
  Bool.eq_false_iff.2 fun hbit => h (reaches_of_storedBit hp hbit)

end StoredBit

namespace Peripheral

variable {δ : Type} [Peripheral δ]

/-! ## From words to all widths -/

/-- The bit `p` of the word at `a`, which `bit` takes from the device, changes by what is stored into
it as `act` says. -/
structure ActsOnBit (a p : UInt32) (bit : δ → Bool) (act : Bool → Bool → Bool) : Prop where
  reads : ∀ (d : δ) (address : UInt32), bit (readWord d address).device = bit d
  writes : ∀ (d : δ) (address word : UInt32), bit (writeWord d address word).device =
    if address = a then act (bit d) (testBit32 word p) else bit d
  /-- A stored zero does nothing. -/
  idle : ∀ value, act value false = value
  /-- Narrow writes do not carry the bit over. -/
  carriesNone : testBit32 (retained δ a) p = false
  doubleReads : ∀ (d : δ) address, readDouble d address = readDoubleByWords readWord d address
  doubleWrites : ∀ (d : δ) address value,
    writeDouble d address value = writeDoubleByWords writeWord d address value

namespace ActsOnBit

variable {a p : UInt32} {bit : δ → Bool} {act : Bool → Bool → Bool} (h : ActsOnBit a p bit act)
include h

theorem device_readDouble {d : δ} {address : UInt32} {r : Reply δ UInt64}
    (hr : Peripheral.readDouble d address = .ok r) : bit r.device = bit d := by
  rw [h.doubleReads] at hr
  exact readDoubleByWords_keeps (P := fun d' => bit d' = bit d)
    (fun d' address hd' => (h.reads d' address).trans hd') rfl hr

/-- Reads leave the bit as it is. -/
theorem read {w : Width} {d : δ} {address : UInt32} {r : Reply δ w.Value}
    (hr : Peripheral.read w d address = .ok r) : bit r.device = bit d :=
  read_keeps (P := fun d' => bit d' = bit d) (fun hd' => (h.reads ..).trans hd')
    (fun hd' hr' => (h.device_readDouble hr').trans hd') rfl hr

theorem writeWord_of_ne (d : δ) {address : UInt32} (word : UInt32) (hne : address ≠ a) :
    bit (Peripheral.writeWord d address word).device = bit d := by
  rw [h.writes, if_neg hne]

/-- A narrow write to the register acts on the bit by its lane; outside the lane it is zero there. -/
theorem writeLane {d : δ} {address lane mask value : UInt32} (haddress : wordAddress address = a) :
    bit (Peripheral.writeLane d address lane mask value).device =
      act (bit d) (testBit32 (value <<< lane) p) := by
  subst haddress
  show bit (Peripheral.writeWord (Peripheral.readWord d _).device _
    ((Peripheral.readWord d _).value &&& Peripheral.retained δ _ &&& ~~~(mask <<< lane) |||
      value <<< lane)).device = _
  rw [h.writes, if_pos rfl, h.reads, testBit32_or, testBit32_and, testBit32_and, h.carriesNone,
    Bool.and_false, Bool.false_and, Bool.false_or]

theorem writeLane_of_ne {d : δ} {address lane mask value : UInt32}
    (hne : wordAddress address ≠ a) :
    bit (Peripheral.writeLane d address lane mask value).device = bit d := by
  show bit (Peripheral.writeWord (Peripheral.readWord d _).device _ _).device = _
  rw [h.writeWord_of_ne _ _ hne, h.reads]

/-- Of the words of a doubleword, the second one is not at a multiple of eight. -/
theorem device_writeDouble {d : δ} {address : UInt32} {value : UInt64} {r : Reply δ Unit}
    (haddress : 8 ∣ address.toNat) (ha : 8 ∣ a.toNat)
    (hr : Peripheral.writeDouble d address value = .ok r) :
    bit r.device = if address = a then act (bit d) (testBit32 value.toUInt32 p) else bit d := by
  rw [h.doubleWrites] at hr
  obtain ⟨next, hnext, hr⟩ := exists_of_bind_eq_ok hr
  cases hr
  cases Checked.eq_of_add32 hnext
  have hne : address + 4 ≠ a := by
    rintro rfl
    rw [UInt32.toNat_add] at ha
    have hlt := address.toNat_lt
    have hfour : (4 : UInt32).toNat = 4 := rfl
    omega
  show bit (Peripheral.writeWord (Peripheral.writeWord d address _).device (address + 4) _).device = _
  rw [h.writeWord_of_ne _ _ hne, h.writes]

variable (hp : p < 32) (ha : 16 ∣ a.toNat)
include hp ha

/-- A narrow write acts on the bit by what it stores into it. -/
theorem write_narrow {w : Width} {address lane mask value : UInt32} (v : w.Value) (d : δ)
    (hnumber : w.number v = value.toNat) (hbytes : w.bytes = 1 ∨ w.bytes = 2)
    (haddress : w.bytes ∣ address.toNat)
    (hlane : ∀ k, k < 4 → address = a + k → lane = 8 * k) :
    bit (Peripheral.writeLane d address lane mask value).device =
      act (bit d) (w.storedBit address v a p) := by
  by_cases hword : wordAddress address = a
  · obtain ⟨k, hk, hsum⟩ := exists_lane address
    rw [hword] at hsum
    subst hsum
    have hk' : k.toNat < 4 := hk
    have hlane8 : (8 * k).toNat = 8 * k.toNat := by
      rw [UInt32.toNat_mul]
      exact Nat.mod_eq_of_lt (show 8 * k.toNat < 2 ^ 32 by omega)
    have hsum : (a + k).toNat = a.toNat + k.toNat := toNat_lane hk (Nat.dvd_trans (by decide) ha)
    have hle : 8 * k.toNat ≤ p.toNat ↔ 8 * (a.toNat + k.toNat) ≤ 8 * a.toNat + p.toNat := by omega
    have hbit : 8 * a.toNat + p.toNat - 8 * (a.toNat + k.toNat) = p.toNat - 8 * k.toNat := by omega
    rw [h.writeLane hword, hlane k hk rfl, testBit32_shiftLeft value (lane_lt hk) hp,
      Width.storedBit, hnumber, hsum, hlane8, hbit, decide_eq_decide.2 hle]
  · have hslot : (wordAddress address).toNat = address.toNat - address.toNat % 4 :=
      toNat_and_not_mask address 3 2 rfl
    have hstored : w.storedBit address v a p = false := by
      refine Width.storedBit_of_disjoint v hp fun hreach => hword (UInt32.toNat_inj.1 ?_)
      rw [hslot]
      rcases hbytes with hbytes | hbytes <;> rw [hbytes] at hreach haddress <;> omega
    rw [h.writeLane_of_ne hword, hstored, h.idle]

/-- A write that starts at the word, or does not reach it, acts on the bit by the low word of its
value. -/
theorem act_storedBit {w : Width} {address : UInt32} (v : w.Value) (y : Bool)
    (hwidth : 4 ∣ w.bytes) (haddress : w.bytes ∣ address.toNat) :
    (if address = a then act y ((w.number v).testBit p.toNat) else y) =
      act y (w.storedBit address v a p) := by
  split
  · rename_i heq
    subst heq
    rw [Width.storedBit_self]
  · rename_i hne
    have hstored : w.storedBit address v a p = false := by
      refine Width.storedBit_of_disjoint v hp fun hreach => hne (UInt32.toNat_inj.1 ?_)
      cases w <;> simp only [Width.bytes] at hreach haddress hwidth <;> omega
    rw [hstored, h.idle]

/-- **An aligned write of any width acts on the bit by what it stores into it.** -/
theorem write {w : Width} {d : δ} {address : UInt32} {value : w.Value} {r : Reply δ Unit}
    (haddress : w.bytes ∣ address.toNat) (hr : Peripheral.write w d address value = .ok r) :
    bit r.device = act (bit d) (w.storedBit address value a p) := by
  have hp' : p.toNat % 32 = p.toNat := Nat.mod_eq_of_lt hp
  have ha8 : 8 ∣ a.toNat := Nat.dvd_trans (by decide) ha
  have hfour : 4 ∣ a.toNat := Nat.dvd_trans (by decide) ha
  cases w with
  | byte =>
    cases hr
    refine h.write_narrow hp ha (w := .byte) value d ?_ (.inl rfl) haddress fun k hk hk' => ?_
    · exact (Width.number_byte value).trans (UInt8.toNat_toUInt32 value).symm
    · exact hk' ▸ byteLane_lane hk hfour
  | half =>
    cases hr
    refine h.write_narrow hp ha (w := .half) value d ?_ (.inr rfl) haddress fun k hk hk' => ?_
    · exact (Width.number_half value).trans (UInt16.toNat_toUInt32 value).symm
    · subst hk'
      exact halfLane_lane hk hfour (lane_of_even hk hfour haddress)
  | word =>
    cases hr
    rw [← h.act_storedBit hp ha (w := .word) value _ (by decide) haddress, h.writes, testBit32_eq,
      hp', Width.number_word]
  | double =>
    rw [h.device_writeDouble haddress ha8 hr, testBit32_low hp, ← Width.number_double value,
      ← h.act_storedBit hp ha (w := .double) value _ (by decide) haddress]
  | quad =>
    obtain ⟨low, hlow, hr⟩ := exists_of_bind_eq_ok hr
    obtain ⟨next, hnext, hr⟩ := exists_of_bind_eq_ok hr
    obtain ⟨high, hhigh, hr⟩ := exists_of_bind_eq_ok hr
    cases hr
    cases Checked.eq_of_add32 hnext
    have haddress : 16 ∣ address.toNat := haddress
    have hnext : (address + 8).toNat = (address.toNat + 8) % 2 ^ 32 := UInt32.toNat_add ..
    -- the high doubleword starts in the middle of a slot, the register does not
    have hne : address + 8 ≠ a := by
      rintro rfl
      omega
    show bit high.device = _
    rw [h.device_writeDouble (by omega) ha8 hhigh, if_neg hne,
      h.device_writeDouble (Nat.dvd_trans (by decide) haddress) ha8 hlow, testBit32_low hp,
      ← Width.testBit_number_quad value hp,
      ← h.act_storedBit hp ha (w := .quad) value _ (by decide) haddress]

end ActsOnBit

end Peripheral

open Peripheral (ActsOnBit)

/-! ## The registers -/

namespace Intc

/-- A stored one acknowledges a source. -/
theorem actsOnBit_status (p : UInt32) :
    ActsOnBit statusAddress p (fun d : Intc => testBit32 d.status p) fun y s => y && !s where
  reads d address := congrArg (fun d : Intc => testBit32 d.status p) (device_readWord d address)
  writes d address word := by
    refine (testBit32_status_writeWord d address word p).trans ?_
    split
    · rename_i h
      rw [decide_eq_true h, Bool.true_and]
    · rename_i h
      rw [decide_eq_false h, Bool.false_and, Bool.not_false, Bool.and_true]
  idle y := Bool.and_true y
  carriesNone := testBit32_zero _
  doubleReads _ _ := rfl
  doubleWrites _ _ _ := rfl

/-- A stored one toggles the mask of a source. -/
theorem actsOnBit_mask {p : UInt32} (hp : p < 32) :
    ActsOnBit maskAddress p (fun d : Intc => testBit32 d.mask p) fun y s =>
      y ^^ (s && decide (p < 15)) where
  reads d address := congrArg (fun d : Intc => testBit32 d.mask p) (device_readWord d address)
  writes d address word := by
    show testBit32 (d.writeWord address word).device.mask p = _
    unfold writeWord
    split
    · rename_i h
      rw [if_neg (h ▸ (by decide : statusAddress ≠ maskAddress))]
    · split
      · rw [testBit32_xor, testBit32_low_mask word hp, Bool.and_comm]
        rfl
      · rfl
  idle y := Bool.xor_false y
  carriesNone := testBit32_zero _
  doubleReads _ _ := rfl
  doubleWrites _ _ _ := rfl

end Intc

namespace Dmac

/-- The address of the status register. -/
def statusAddress : UInt32 := 0x1000E010

/-- A stored one clears a flag or toggles a mask. -/
theorem actsOnBit_status (p : UInt32) :
    ActsOnBit statusAddress p (fun d : Dmac => testBit32 d.status p) fun y s =>
      (y && !(s && testBit32 statusFlags p)) ^^ (s && testBit32 maskFlags p) where
  reads d address := congrArg (fun d : Dmac => testBit32 d.status p) (device_readWord d address)
  writes d address word := by
    show testBit32 (d.writeWord address word).device.status p = _
    split
    · rename_i h
      subst h
      show testBit32 (d.set .status word).status p = _
      simp only [set, testBit32_xor, testBit32_and, testBit32_not]
    · rename_i hne
      unfold writeWord
      split
      · split <;> rfl
      · split
        · rename_i register hregister
          cases register
          case status => exact absurd (eq_of_status hregister) hne
          all_goals rfl
        · rfl
  idle y := by simp
  carriesNone := testBit32_zero _
  doubleReads _ _ := rfl
  doubleWrites _ _ _ := rfl

end Dmac

end R5900
