import R5900.Proofs.BitField
import R5900.Proofs.Device.Access

/-!
# The interrupt controller

Reading the controller leaves it as it is. A write of any width is a sequence of word writes
(`Intc.wordWrites`, `Intc.device_write`), in which a narrow write writes zero to the other lanes.

* `Intc.exists_of_status_cleared`: a status bit is cleared only by a word written to the status
  register that has the bit set, and `Intc.status_of_writeWords`: no write sets one.
* `Intc.Extends`: what the devices do of their own only sets status bits.
-/

namespace R5900

namespace Intc

open Peripheral (wordAddress byteLane halfLane)

/-! ## Writes as words -/

/-- The words that a doubleword write writes, with their addresses. -/
def doubleWrites (address : UInt32) (value : UInt64) : List (UInt32 × UInt32) :=
  [(address, value.toUInt32), (address + 4, (value >>> 32).toUInt32)]

/-- The words that a write writes to the controller, with their addresses. -/
def wordWrites (w : Width) (address : UInt32) (value : w.Value) : List (UInt32 × UInt32) :=
  match w, value with
  | .byte, v => [(wordAddress address, UInt8.toUInt32 v <<< byteLane address)]
  | .half, v => [(wordAddress address, UInt16.toUInt32 v <<< halfLane address)]
  | .word, v => [(address, v)]
  | .double, v => doubleWrites address v
  | .quad, v => doubleWrites address (Quad.lo v) ++ doubleWrites (address + 8) (Quad.hi v)

/-- The controller after word writes, in order. -/
def writeWords (d : Intc) (writes : List (UInt32 × UInt32)) : Intc :=
  writes.foldl (fun d write => (d.writeWord write.1 write.2).device) d

theorem writeWords_append (d : Intc) (writes writes' : List (UInt32 × UInt32)) :
    d.writeWords (writes ++ writes') = (d.writeWords writes).writeWords writes' :=
  List.foldl_append

@[simp] theorem device_readWord (d : Intc) (address : UInt32) :
    (d.readWord address).device = d := by
  unfold readWord
  split
  · rfl
  · split <;> rfl

theorem device_writeLane (d : Intc) (address lane mask value : UInt32) :
    (Peripheral.writeLane d address lane mask value).device =
      (d.writeWord (wordAddress address) (value <<< lane)).device := by
  show ((d.readWord (wordAddress address)).device.writeWord (wordAddress address)
    ((d.readWord (wordAddress address)).value &&& 0 &&& ~~~(mask <<< lane) |||
      value <<< lane)).device = _
  rw [device_readWord, UInt32.and_zero, UInt32.zero_and, UInt32.zero_or]

theorem device_readDouble {d : Intc} {address : UInt32} {r : Reply Intc UInt64}
    (h : Peripheral.readDouble d address = .ok r) : r.device = d := by
  refine readDoubleByWords_keeps (P := fun d' => d' = d) ?_ rfl h
  intro d' address hd'
  exact (device_readWord d' address).trans hd'

theorem device_writeDouble {d : Intc} {address : UInt32} {value : UInt64} {r : Reply Intc Unit}
    (h : Peripheral.writeDouble d address value = .ok r) :
    r.device = d.writeWords (doubleWrites address value) := by
  obtain ⟨next, hnext, hr⟩ := exists_of_bind_eq_ok h
  cases hr
  cases Checked.eq_of_add32 hnext
  rfl

/-- Reading the controller leaves it as it is. -/
theorem device_read {w : Width} {d : Intc} {address : UInt32} {r : Reply Intc w.Value}
    (h : Peripheral.read w d address = .ok r) : r.device = d :=
  Peripheral.read_keeps (P := fun d' => d' = d)
    (fun hd' => (device_readWord ..).trans hd') (fun hd' hr => (device_readDouble hr).trans hd')
    rfl h

/-- A write to the controller writes its words. -/
theorem device_write {w : Width} {d : Intc} {address : UInt32} {value : w.Value}
    {r : Reply Intc Unit} (h : Peripheral.write w d address value = .ok r) :
    r.device = d.writeWords (wordWrites w address value) := by
  cases w with
  | byte => cases h; exact device_writeLane ..
  | half => cases h; exact device_writeLane ..
  | word => cases h; rfl
  | double => exact device_writeDouble h
  | quad =>
    obtain ⟨low, hlow, h⟩ := exists_of_bind_eq_ok h
    obtain ⟨next, hnext, h⟩ := exists_of_bind_eq_ok h
    obtain ⟨high, hhigh, h⟩ := exists_of_bind_eq_ok h
    cases h
    cases Checked.eq_of_add32 hnext
    show high.device = _
    rw [device_writeDouble hhigh, device_writeDouble hlow]
    exact (writeWords_append ..).symm

/-! ## Status and mask -/

theorem testBit32_low_mask (x : UInt32) {p : UInt32} (hp : p.toNat < 32) :
    testBit32 (field32 x 0 15) p = (decide (p.toNat < 15) && testBit32 x p) := by
  rw [testBit32_field32 x (by decide) (by decide) hp, testBit32_eq, Nat.mod_eq_of_lt hp]
  show (decide (p.toNat < 15) && x.toNat.testBit (0 + p.toNat)) = _
  rw [Nat.zero_add]

section Write

variable (d : Intc) (address value p : UInt32)

theorem testBit32_status_writeWord :
    testBit32 (d.writeWord address value).device.status p =
      (testBit32 d.status p && !(address = statusAddress && testBit32 value p)) := by
  unfold writeWord
  split
  · rename_i h
    simp [h]
  · rename_i h
    split <;> simp [h]

end Write

variable {d d' : Intc} {writes : List (UInt32 × UInt32)} {p : UInt32}

/-- No write sets a status bit. -/
theorem status_of_writeWords (h : testBit32 (d.writeWords writes).status p = true) :
    testBit32 d.status p = true := by
  induction writes generalizing d with
  | nil => exact h
  | cons write writes ih =>
    have hwrite := ih h
    rw [testBit32_status_writeWord, Bool.and_eq_true] at hwrite
    exact hwrite.1

/-- A status bit is cleared only by a word written to the status register that has the bit set. -/
theorem exists_of_status_cleared (h : testBit32 d.status p = true)
    (h' : testBit32 (d.writeWords writes).status p = false) :
    ∃ value, (statusAddress, value) ∈ writes ∧ testBit32 value p = true := by
  induction writes generalizing d with
  | nil =>
    rw [writeWords, List.foldl_nil, h] at h'
    cases h'
  | cons write writes ih =>
    obtain ⟨address, value⟩ := write
    cases hbit : testBit32 (d.writeWord address value).device.status p with
    | true =>
      obtain ⟨v, hv, hp⟩ := ih hbit h'
      exact ⟨v, List.mem_cons_of_mem _ hv, hp⟩
    | false =>
      rw [testBit32_status_writeWord, h, Bool.true_and, Bool.not_eq_false', Bool.and_eq_true,
        decide_eq_true_iff] at hbit
      obtain ⟨rfl, hp⟩ := hbit
      exact ⟨value, List.mem_cons_self, hp⟩

/-- The controller asks for nothing if it has no status bit more than one that asks for nothing with
the same mask. -/
theorem pending_eq_false_of_le (hmask : d'.mask = d.mask)
    (hstatus : ∀ p, testBit32 d'.status p = true → testBit32 d.status p = true)
    (h : d.pending = false) : d'.pending = false := by
  have hnone : ∀ p, (testBit32 d.status p && testBit32 d.mask p) = false := by
    intro p
    rw [← testBit32_and, bne_eq_false_iff_eq.1 h, testBit32_zero]
  refine bne_eq_false_iff_eq.2 (eq_of_testBit32 fun p => ?_)
  rw [testBit32_and, testBit32_zero, hmask]
  cases hp : testBit32 d'.status p with
  | false => rfl
  | true =>
    have hbit := hnone p
    rwa [hstatus p hp] at hbit

theorem pending_of_testBit32 (hstatus : testBit32 d.status p = true)
    (hmask : testBit32 d.mask p = true) : d.pending = true :=
  bne_iff_ne.2 (and_ne_zero_of_testBit32 hstatus hmask)

/-! ## Sources -/

/-- The controller `d'` has the mask of `d` and all its status bits. -/
structure Extends (d d' : Intc) : Prop where
  mask : d'.mask = d.mask
  status : ∀ p, testBit32 d.status p = true → testBit32 d'.status p = true

namespace Extends

theorem refl (d : Intc) : d.Extends d := ⟨rfl, fun _ h => h⟩

theorem trans {d'' : Intc} (h : d.Extends d') (h' : d'.Extends d'') : d.Extends d'' :=
  ⟨h'.mask.trans h.mask, fun p hp => h'.status p (h.status p hp)⟩

end Extends

theorem testBit32_raise (d : Intc) (source : InterruptSource) (p : UInt32) :
    testBit32 (d.raise source).status p =
      if source.bit.toNat % 32 = p.toNat % 32 then true else testBit32 d.status p :=
  testBit32_putBit32 ..

/-- Latching a source sets its status bit. -/
theorem testBit32_raise_self (d : Intc) (source : InterruptSource) :
    testBit32 (d.raise source).status source.bit = true := by
  rw [testBit32_raise, if_pos rfl]

theorem extends_raise (d : Intc) (source : InterruptSource) : d.Extends (d.raise source) := by
  refine ⟨rfl, fun p hp => ?_⟩
  rw [testBit32_raise]
  split
  · rfl
  · exact hp

end Intc

end R5900
