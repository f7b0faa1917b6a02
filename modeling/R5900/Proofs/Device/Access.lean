import R5900.Device.Bank
import R5900.Proofs.Arithmetic

/-!
# Accesses to devices

Accesses of all widths are built from word accesses, or from doubleword accesses where a device has
doubleword registers. This module derives from that two facts about every width at once.

* An access answers unless its last word leaves the address space (`Peripheral.read_eq_ok`,
  `Peripheral.write_eq_ok`, and the same for a unit of a bank).
* What every word and doubleword access keeps is kept by every access (`Peripheral.Keeps.read`,
  `Peripheral.Keeps.write`).
-/

namespace R5900

/-! ## Doublewords by words -/

section Words

variable {δ : Type} {readWord : δ → UInt32 → Reply δ UInt32}
  {writeWord : δ → UInt32 → UInt32 → Reply δ Unit}

theorem add32_four_eq_ok {address : UInt32} (h : address.toNat + 4 < 2 ^ 32) :
    Checked.add32 address 4 = .ok (address + 4) :=
  Checked.add32_eq_ok h

theorem readDoubleByWords_eq_ok (d : δ) {address : UInt32} (h : address.toNat + 4 < 2 ^ 32) :
    ∃ r, readDoubleByWords readWord d address = .ok r := by
  unfold readDoubleByWords
  rw [add32_four_eq_ok h]
  exact ⟨_, rfl⟩

theorem writeDoubleByWords_eq_ok (d : δ) {address : UInt32} (value : UInt64)
    (h : address.toNat + 4 < 2 ^ 32) :
    ∃ r, writeDoubleByWords writeWord d address value = .ok r := by
  unfold writeDoubleByWords
  rw [add32_four_eq_ok h]
  exact ⟨_, rfl⟩

/-- A property that word reads keep is kept by a doubleword read made of two of them. -/
theorem readDoubleByWords_keeps {P : δ → Prop}
    (hread : ∀ d address, P d → P (readWord d address).device)
    {d : δ} {address : UInt32} {r : Reply δ UInt64} (hd : P d)
    (h : readDoubleByWords readWord d address = .ok r) : P r.device := by
  obtain ⟨next, -, hr⟩ := exists_of_bind_eq_ok h
  cases hr
  exact hread _ _ (hread _ _ hd)

theorem writeDoubleByWords_keeps {P : δ → Prop}
    (hwrite : ∀ d address value, P d → P (writeWord d address value).device)
    {d : δ} {address : UInt32} {value : UInt64} {r : Reply δ Unit} (hd : P d)
    (h : writeDoubleByWords writeWord d address value = .ok r) : P r.device := by
  obtain ⟨next, -, hr⟩ := exists_of_bind_eq_ok h
  cases hr
  exact hwrite _ _ _ (hwrite _ _ _ hd)

end Words

/-! ## Accesses that answer -/

namespace Peripheral

/-- A device whose doubleword accesses answer unless their second word leaves the address space. -/
class Answers (δ : Type) [Peripheral δ] : Prop where
  readDouble_eq_ok : ∀ (d : δ) {address : UInt32}, address.toNat + 4 < 2 ^ 32 →
    ∃ r, readDouble d address = .ok r
  writeDouble_eq_ok : ∀ (d : δ) {address : UInt32} (value : UInt64), address.toNat + 4 < 2 ^ 32 →
    ∃ r, writeDouble d address value = .ok r

instance : Answers Intc := ⟨readDoubleByWords_eq_ok, writeDoubleByWords_eq_ok⟩
instance : Answers Timer := ⟨readDoubleByWords_eq_ok, writeDoubleByWords_eq_ok⟩
instance : Answers Dmac := ⟨readDoubleByWords_eq_ok, writeDoubleByWords_eq_ok⟩
instance : Answers Sif := ⟨readDoubleByWords_eq_ok, writeDoubleByWords_eq_ok⟩
instance : Answers Rdram := ⟨readDoubleByWords_eq_ok, writeDoubleByWords_eq_ok⟩
instance : Answers PassiveRegisters := ⟨readDoubleByWords_eq_ok, writeDoubleByWords_eq_ok⟩
-- the graphics unit has doubleword registers, whose accesses compute no second address
instance : Answers Gs := ⟨fun _ _ _ => ⟨_, rfl⟩, fun _ _ _ _ => ⟨_, rfl⟩⟩

variable {δ : Type} [Peripheral δ] [Answers δ]

theorem add32_eight_toNat {address : UInt32} (h : address.toNat + 12 < 2 ^ 32) :
    (address + 8).toNat = address.toNat + 8 := by
  rw [UInt32.toNat_add]
  exact Nat.mod_eq_of_lt (Nat.lt_trans (Nat.add_lt_add_left (by decide) _) h)

theorem add32_eight_eq_ok {address : UInt32} (h : address.toNat + 12 < 2 ^ 32) :
    Checked.add32 address 8 = .ok (address + 8) :=
  Checked.add32_eq_ok (Nat.lt_trans (Nat.add_lt_add_left (by decide) _) h)

/-- A read of any width answers if its last word stays in the address space. -/
theorem read_eq_ok (w : Width) (d : δ) {address : UInt32} (h : address.toNat + 12 < 2 ^ 32) :
    ∃ r, read w d address = .ok r := by
  cases w with
  | byte => exact ⟨_, rfl⟩
  | half => exact ⟨_, rfl⟩
  | word => exact ⟨_, rfl⟩
  | double => exact Answers.readDouble_eq_ok d (by omega)
  | quad =>
    have hnext := add32_eight_toNat h
    have hlast : (address + 8).toNat + 4 < 2 ^ 32 := by omega
    obtain ⟨low, hlow⟩ := Answers.readDouble_eq_ok d (show address.toNat + 4 < 2 ^ 32 by omega)
    obtain ⟨high, hhigh⟩ := Answers.readDouble_eq_ok low.device hlast
    refine ⟨⟨⟨low.value, high.value⟩, high.device, low.notes ++ high.notes⟩, ?_⟩
    simp only [read, readQuad, hlow, add32_eight_eq_ok h, bind, Except.bind, hhigh]
    rfl

/-- A write of any width answers if its last word stays in the address space. -/
theorem write_eq_ok (w : Width) (d : δ) {address : UInt32} (value : w.Value)
    (h : address.toNat + 12 < 2 ^ 32) : ∃ r, write w d address value = .ok r := by
  cases w with
  | byte => exact ⟨_, rfl⟩
  | half => exact ⟨_, rfl⟩
  | word => exact ⟨_, rfl⟩
  | double => exact Answers.writeDouble_eq_ok d value (by omega)
  | quad =>
    have hnext := add32_eight_toNat h
    have hlast : (address + 8).toNat + 4 < 2 ^ 32 := by omega
    obtain ⟨low, hlow⟩ :=
      Answers.writeDouble_eq_ok d (Quad.lo value) (show address.toNat + 4 < 2 ^ 32 by omega)
    obtain ⟨high, hhigh⟩ := Answers.writeDouble_eq_ok low.device (Quad.hi value) hlast
    refine ⟨⟨(), high.device, low.notes ++ high.notes⟩, ?_⟩
    simp only [write, writeQuad, hlow, add32_eight_eq_ok h, bind, Except.bind, hhigh]
    rfl

end Peripheral

namespace Device

theorem answer_eq_ok {δ α : Type} {kind : δ → Device} {reply : Except Fault (Reply δ α)}
    (h : ∃ r, reply = .ok r) : ∃ r, answer kind reply = .ok r := by
  obtain ⟨r, rfl⟩ := h
  exact ⟨_, rfl⟩

theorem read_eq_ok (w : Width) (device : Device) {address : UInt32}
    (h : address.toNat + 12 < 2 ^ 32) : ∃ r, read w device address = .ok r := by
  cases device <;> exact answer_eq_ok (Peripheral.read_eq_ok w _ h)

theorem write_eq_ok (w : Width) (device : Device) {address : UInt32} (value : w.Value)
    (h : address.toNat + 12 < 2 ^ 32) : ∃ r, write w device address value = .ok r := by
  cases device <;> exact answer_eq_ok (Peripheral.write_eq_ok w _ value h)

end Device

namespace Bank

theorem answer_eq_ok {δ α : Type} {put : δ → Bank} {reply : Except Fault (Reply δ α)}
    (h : ∃ r, reply = .ok r) : ∃ r, answer put reply = .ok r := by
  obtain ⟨r, rfl⟩ := h
  exact ⟨_, rfl⟩

/-- A read from any unit answers if its last word stays in the address space. -/
theorem read_eq_ok (w : Width) (b : Bank) (unit : UnitId) {address : UInt32}
    (h : address.toNat + 12 < 2 ^ 32) : ∃ r, b.read w unit address = .ok r := by
  cases unit <;> simp only [read]
  case attached i =>
    split
    · rename_i device _
      exact answer_eq_ok (Device.read_eq_ok w device h)
    · exact ⟨_, rfl⟩
  all_goals exact answer_eq_ok (Peripheral.read_eq_ok w _ h)

/-- A write to any unit answers if its last word stays in the address space. -/
theorem write_eq_ok (w : Width) (b : Bank) (unit : UnitId) {address : UInt32} (value : w.Value)
    (h : address.toNat + 12 < 2 ^ 32) : ∃ r, b.write w unit address value = .ok r := by
  cases unit <;> simp only [write]
  case attached i =>
    split
    · rename_i device _
      exact answer_eq_ok (Device.write_eq_ok w device value h)
    · exact ⟨_, rfl⟩
  all_goals exact answer_eq_ok (Peripheral.write_eq_ok w _ value h)

end Bank

/-! ## What accesses keep -/

namespace Peripheral

variable {δ : Type} [Peripheral δ]

/-- What word and doubleword reads keep, reads of every width keep. -/
theorem read_keeps {P : δ → Prop}
    (hword : ∀ {d : δ} {address : UInt32}, P d → P (readWord d address).device)
    (hdouble : ∀ {d : δ} {address : UInt32} {r : Reply δ UInt64}, P d →
      readDouble d address = .ok r → P r.device)
    {w : Width} {d : δ} {address : UInt32} {r : Reply δ w.Value} (hd : P d)
    (h : read w d address = .ok r) : P r.device := by
  cases w with
  | byte => cases h; exact hword hd
  | half => cases h; exact hword hd
  | word => cases h; exact hword hd
  | double => exact hdouble hd h
  | quad =>
    obtain ⟨low, hlow, h⟩ := exists_of_bind_eq_ok h
    obtain ⟨next, -, h⟩ := exists_of_bind_eq_ok h
    obtain ⟨high, hhigh, h⟩ := exists_of_bind_eq_ok h
    cases h
    show P high.device
    exact hdouble (hdouble hd hlow) hhigh

/-- A property of a device that every word and doubleword access keeps. -/
structure Keeps (P : δ → Prop) : Prop where
  readWord : ∀ {d : δ} {address : UInt32}, P d → P (readWord d address).device
  writeWord : ∀ {d : δ} {address value : UInt32}, P d → P (writeWord d address value).device
  readDouble : ∀ {d : δ} {address : UInt32} {r : Reply δ UInt64}, P d →
    readDouble d address = .ok r → P r.device
  writeDouble : ∀ {d : δ} {address : UInt32} {value : UInt64} {r : Reply δ Unit}, P d →
    writeDouble d address value = .ok r → P r.device

/-- What word accesses keep, all accesses keep to a device whose doublewords are pairs of words. -/
theorem keeps_of_words {P : δ → Prop}
    (hread : ∀ d address, P d → P (readWord d address).device)
    (hwrite : ∀ d address value, P d → P (writeWord d address value).device)
    (hreads : ∀ (d : δ) address, readDouble d address = readDoubleByWords readWord d address)
    (hwrites : ∀ (d : δ) address value,
      writeDouble d address value = writeDoubleByWords writeWord d address value) : Keeps P where
  readWord hd := hread _ _ hd
  writeWord hd := hwrite _ _ _ hd
  readDouble hd h := readDoubleByWords_keeps hread hd (hreads .. ▸ h)
  writeDouble hd h := writeDoubleByWords_keeps hwrite hd (hwrites .. ▸ h)

namespace Keeps

variable {P : δ → Prop} (hP : Keeps P)
include hP

/-- Reads of every width keep the property. -/
theorem read {w : Width} {d : δ} {address : UInt32} {r : Reply δ w.Value} (hd : P d)
    (h : read w d address = .ok r) : P r.device :=
  read_keeps hP.readWord hP.readDouble hd h

/-- Writes of every width keep the property. -/
theorem write {w : Width} {d : δ} {address : UInt32} {value : w.Value} {r : Reply δ Unit}
    (hd : P d) (h : write w d address value = .ok r) : P r.device := by
  cases w with
  | byte => cases h; exact hP.writeWord (hP.readWord hd)
  | half => cases h; exact hP.writeWord (hP.readWord hd)
  | word => cases h; exact hP.writeWord hd
  | double => exact hP.writeDouble hd h
  | quad =>
    obtain ⟨low, hlow, h⟩ := exists_of_bind_eq_ok h
    obtain ⟨next, -, h⟩ := exists_of_bind_eq_ok h
    obtain ⟨high, hhigh, h⟩ := exists_of_bind_eq_ok h
    cases h
    show P high.device
    exact hP.writeDouble (hP.writeDouble hd hlow) hhigh

end Keeps

end Peripheral

namespace Bank

theorem exists_of_answer_eq_ok {δ α : Type} {put : δ → Bank} {reply : Except Fault (Reply δ α)}
    {r : Reply Bank α} (h : answer put reply = .ok r) :
    ∃ r', reply = .ok r' ∧ r.device = put r'.device := by
  cases reply with
  | error fault => cases h
  | ok r' => cases h; exact ⟨r', rfl, rfl⟩

end Bank

end R5900
