import R5900.Proofs.ByteMap
import R5900.Proofs.Device.NarrowWrite
import R5900.Proofs.Device.WellFormed

/-!
# Devices that hold bytes

A device holds bytes at some addresses if its word and doubleword accesses there are loads and stores
of a byte map (`Peripheral.HoldsBytes`). Then so are its accesses of every width
(`Peripheral.HoldsBytes.read`, `Peripheral.HoldsBytes.write`): a narrow read takes some bytes of a
word, a narrow write keeps the others, and wide accesses are made of two.

The passive registers hold bytes at all addresses (`PassiveRegisters.holdsBytes`), and the graphics
unit does in the first halves of the slots of all registers but the status (`Gs.holdsBytes`).
-/

namespace R5900

namespace Peripheral

variable {δ : Type} [Peripheral δ]

/-- At the addresses of `dom`, the device holds the bytes that `bytes` takes from it. -/
structure HoldsBytes (dom : UInt32 → Prop) (bytes : δ → ByteMap) : Prop where
  /-- The addresses make up whole doublewords. -/
  block : ∀ {a a' : UInt32}, dom a → a'.toNat / 8 = a.toNat / 8 → dom a'
  reads : ∀ (d : δ) {a : UInt32}, 4 ∣ a.toNat → dom a →
    (readWord d a).device = d ∧ (readWord d a).value.toNat = (bytes d).load a 4
  writes : ∀ (d : δ) {a : UInt32} (word : UInt32), 4 ∣ a.toNat → dom a →
    bytes (writeWord d a word).device = (bytes d).store a 4 word.toNat
  /-- Narrow writes carry over the whole word. -/
  carriesAll : ∀ {a : UInt32}, dom a → retained δ a = 0xFFFFFFFF
  doubleReads : ∀ (d : δ) {a : UInt32}, 8 ∣ a.toNat → dom a →
    ∃ r, readDouble d a = .ok r ∧ r.device = d ∧ r.value.toNat = (bytes d).load a 8
  doubleWrites : ∀ (d : δ) {a : UInt32} (value : UInt64), 8 ∣ a.toNat → dom a →
    ∃ r, writeDouble d a value = .ok r ∧ bytes r.device = (bytes d).store a 8 value.toNat

/-! ## Doublewords by words -/

section Words

variable {dom : UInt32 → Prop} {bytes : δ → ByteMap}

/-- What words hold, a device holds whose doublewords are pairs of words. -/
theorem holdsBytes_of_words
    (hblock : ∀ {a a' : UInt32}, dom a → a'.toNat / 8 = a.toNat / 8 → dom a')
    (hreads : ∀ (d : δ) {a : UInt32}, 4 ∣ a.toNat → dom a →
      (readWord d a).device = d ∧ (readWord d a).value.toNat = (bytes d).load a 4)
    (hwrites : ∀ (d : δ) {a : UInt32} (word : UInt32), 4 ∣ a.toNat → dom a →
      bytes (writeWord d a word).device = (bytes d).store a 4 word.toNat)
    (hcarries : ∀ {a : UInt32}, dom a → retained δ a = 0xFFFFFFFF)
    (hdouble : ∀ (d : δ) address, readDouble d address = readDoubleByWords readWord d address)
    (hdouble' : ∀ (d : δ) address value,
      writeDouble d address value = writeDoubleByWords writeWord d address value) :
    HoldsBytes dom bytes where
  block := hblock
  reads := hreads
  writes := hwrites
  carriesAll := hcarries
  doubleReads d a ha hdom := by
    have hmax := a.toNat_lt
    have hfour : (a + 4).toNat = a.toNat + 4 := ByteMap.toNat_add_ofNat (k := 4) (by omega)
    obtain ⟨hlow, hlowValue⟩ := hreads d (a := a) (by omega) hdom
    obtain ⟨hhigh, hhighValue⟩ := hreads d (a := a + 4) (by omega) (hblock hdom (by omega))
    refine ⟨⟨joinDouble (readWord d a).value (readWord d (a + 4)).value, d,
      (readWord d a).notes ++ (readWord d (a + 4)).notes⟩, ?_, rfl, ?_⟩
    · rw [hdouble, readDoubleByWords, add32_four_eq_ok (by omega)]
      show Except.ok (Reply.mk (joinDouble _ (readWord (readWord d a).device (a + 4)).value)
        (readWord (readWord d a).device (a + 4)).device
        ((readWord d a).notes ++ (readWord (readWord d a).device (a + 4)).notes)) = _
      rw [hlow, hhigh]
    · rw [toNat_joinDouble, hlowValue, hhighValue, (bytes d).load_add 4 4, Nat.mul_comm]
      rfl
  doubleWrites d a value ha hdom := by
    have hmax := a.toNat_lt
    have hfour : (a + 4).toNat = a.toNat + 4 := ByteMap.toNat_add_ofNat (k := 4) (by omega)
    refine ⟨_, by rw [hdouble', writeDoubleByWords, add32_four_eq_ok (by omega)]; rfl, ?_⟩
    show bytes (writeWord (writeWord d a value.toUInt32).device (a + 4)
      (value >>> 32).toUInt32).device = _
    have hlow : value.toUInt32.toNat = value.toNat % 2 ^ 32 := UInt64.toNat_toUInt32 value
    have hhigh : (value >>> 32).toUInt32.toNat = value.toNat / 2 ^ 32 := by
      rw [UInt64.toNat_toUInt32, UInt64.toNat_shiftRight, Nat.shiftRight_eq_div_pow]
      have hlast := value.toNat_lt
      show value.toNat / 2 ^ 32 % 2 ^ 32 = value.toNat / 2 ^ 32
      omega
    rw [hwrites _ _ (by omega) (hblock hdom (by omega)), hwrites _ _ (by omega) hdom, hlow, hhigh]
    refine (ByteMap.store_add (k := 4) (by omega) (Nat.mod_lt _ (by decide))).trans ?_
    rw [show 256 ^ 4 = 2 ^ 32 from rfl, Nat.mod_add_div]

end Words

/-! ## All widths -/

namespace HoldsBytes

variable {dom : UInt32 → Prop} {bytes : δ → ByteMap} (h : HoldsBytes dom bytes) (d : δ)
include h

/-- The word around a byte that the device holds. -/
theorem exists_word {a : UInt32} (hdom : dom a) :
    ∃ base k, k < 4 ∧ a = base + k ∧ wordAddress a = base ∧ 4 ∣ base.toNat ∧ dom base := by
  obtain ⟨k, hk, hsum⟩ := exists_lane a
  have hword : (wordAddress a).toNat = a.toNat - a.toNat % 4 := toNat_and_not_mask a 3 2 rfl
  exact ⟨wordAddress a, k, hk, hsum, rfl, by omega, h.block hdom (by omega)⟩

/-- Bytes of a word that is read. -/
theorem read_narrow {base k lane : UInt32} (hk : k < 4) (hbase : 4 ∣ base.toNat) (hdom : dom base)
    (hlane : lane = 8 * k) {length : Nat} (hfit : k.toNat + length ≤ 4) :
    ((readWord d base).value >>> lane).toNat % 256 ^ length =
      (bytes d).load (base + k) length := by
  have hk : k.toNat < 4 := hk
  have hamount : lane.toNat % 32 = 8 * k.toNat := by
    rw [hlane, UInt32.toNat_mul]
    show 8 * k.toNat % 2 ^ 32 % 32 = 8 * k.toNat
    omega
  have hload := (bytes d).load_part (a := base) hfit
  rw [UInt32.ofNat_toNat] at hload
  rw [hload, UInt32.toNat_shiftRight, hamount, Nat.shiftRight_eq_div_pow, (h.reads d hbase hdom).2,
    Nat.pow_mul 2 8 k.toNat]

/-- Bytes of a word that are replaced. -/
theorem write_narrow {base k address lane mask value : UInt32} (hk : k < 4) (hbase : 4 ∣ base.toNat)
    (hdom : dom base) (haddress : wordAddress address = base) (hlane : lane = 8 * k) {length : Nat}
    (hpos : 0 < length) (hfit : k.toNat + length ≤ 4)
    (hmask : mask.toNat = 2 ^ (8 * length) - 1) (hvalue : value.toNat < 2 ^ (8 * length)) :
    bytes (writeLane d address lane mask value).device =
      (bytes d).store (base + k) length value.toNat := by
  have hmax := base.toNat_lt
  have hk : k.toNat < 4 := hk
  have hamount : lane.toNat = 8 * k.toNat := by
    rw [hlane, UInt32.toNat_mul]
    exact Nat.mod_eq_of_lt (show 8 * k.toNat < 2 ^ 32 by omega)
  obtain ⟨hdevice, hheld⟩ := h.reads d hbase hdom
  subst haddress
  show bytes (writeWord (readWord d (wordAddress address)).device (wordAddress address)
    ((readWord d (wordAddress address)).value &&& retained δ (wordAddress address) &&&
      ~~~(mask <<< lane) ||| value <<< lane)).device = _
  rw [hdevice, h.carriesAll hdom, and_ones32, h.writes d _ hbase hdom]
  refine (ByteMap.store_part (by omega) hfit hpos fun i hi => ?_).trans (by rw [UInt32.ofNat_toNat])
  rw [digit_replaceLane32 hamount hk hmask hvalue hi, hheld, ByteMap.digit_load hi]

/-- **A read of any width gives the bytes that the device holds**, and leaves the device as it
is. -/
theorem read {w : Width} {a : UInt32} (ha : w.bytes ∣ a.toNat)
    (hdom : ∀ a' : UInt32, a.toNat ≤ a'.toNat → a'.toNat < a.toNat + w.bytes → dom a') :
    ∃ r, Peripheral.read w d a = .ok r ∧ r.device = d ∧
      w.number r.value = (bytes d).load a w.bytes := by
  have hmax := a.toNat_lt
  have hfirst : dom a := hdom a (Nat.le_refl _) (Nat.lt_add_of_pos_right (by cases w <;> decide))
  cases w with
  | byte =>
    obtain ⟨base, k, hk, rfl, hword, hbase, hdom⟩ := h.exists_word hfirst
    have hk' : k.toNat < 4 := hk
    refine ⟨_, rfl, ?_, ?_⟩
    · show (readWord d (wordAddress (base + k))).device = d
      rw [hword]
      exact (h.reads d hbase hdom).1
    · rw [Width.number_byte, readByte, hword, UInt32.toNat_toUInt8]
      exact h.read_narrow d hk hbase hdom (byteLane_lane hk hbase) (show k.toNat + 1 ≤ 4 by omega)
  | half =>
    obtain ⟨base, k, hk, rfl, hword, hbase, hdom⟩ := h.exists_word hfirst
    have heven := lane_of_even hk hbase ha
    have hk' : k.toNat + 2 ≤ 4 := by rcases heven with rfl | rfl <;> decide
    refine ⟨_, rfl, ?_, ?_⟩
    · show (readWord d (wordAddress (base + k))).device = d
      rw [hword]
      exact (h.reads d hbase hdom).1
    · rw [Width.number_half, readHalf, hword, UInt32.toNat_toUInt16]
      exact h.read_narrow d hk hbase hdom (halfLane_lane hk hbase heven) hk'
  | word =>
    obtain ⟨hdevice, hvalue⟩ := h.reads d ha hfirst
    exact ⟨_, rfl, hdevice, (Width.number_word _).trans hvalue⟩
  | double =>
    obtain ⟨r, hr, hdevice, hvalue⟩ := h.doubleReads d ha hfirst
    exact ⟨r, hr, hdevice, (Width.number_double _).trans hvalue⟩
  | quad =>
    have ha : 16 ∣ a.toNat := ha
    have hnext : (a + 8).toNat = a.toNat + 8 := ByteMap.toNat_add_ofNat (k := 8) (by omega)
    have hlast : dom (a + 8) := hdom _ (by omega) (by rw [hnext, Width.bytes]; omega)
    obtain ⟨low, hlow, hdevice, hlowValue⟩ := h.doubleReads d (by omega) hfirst
    obtain ⟨high, hhigh, hdevice', hhighValue⟩ := h.doubleReads d (a := a + 8) (by omega) hlast
    have hadd : Checked.add32 a 8 = .ok (a + 8) := add32_eight_eq_ok (by omega)
    refine ⟨⟨⟨low.value, high.value⟩, d, low.notes ++ high.notes⟩, ?_, rfl, ?_⟩
    · simp only [Peripheral.read, readQuad, hlow, hdevice, hadd, hhigh, bind, Except.bind]
      rw [hdevice']
      rfl
    · show high.value.toNat * 2 ^ 64 + low.value.toNat = (bytes d).load a (8 + 8)
      rw [ByteMap.load_add, hlowValue, hhighValue, Nat.add_comm, Nat.mul_comm]
      rfl

/-- **A write of any width replaces the bytes of its own range**, and no other byte that the device
holds. -/
theorem write {w : Width} {a : UInt32} (value : w.Value) (ha : w.bytes ∣ a.toNat)
    (hdom : ∀ a' : UInt32, a.toNat ≤ a'.toNat → a'.toNat < a.toNat + w.bytes → dom a') :
    ∃ r, Peripheral.write w d a value = .ok r ∧
      bytes r.device = (bytes d).store a w.bytes (w.number value) := by
  have hmax := a.toNat_lt
  have hfirst : dom a := hdom a (Nat.le_refl _) (Nat.lt_add_of_pos_right (by cases w <;> decide))
  cases w with
  | byte =>
    obtain ⟨base, k, hk, rfl, hword, hbase, hdom⟩ := h.exists_word hfirst
    have hk' : k.toNat < 4 := hk
    refine ⟨_, rfl, ?_⟩
    rw [Width.number_byte, ← UInt8.toNat_toUInt32]
    exact h.write_narrow d hk hbase hdom hword (byteLane_lane hk hbase) Nat.one_pos
      (show k.toNat + 1 ≤ 4 by omega) rfl (UInt8.toNat_lt value)
  | half =>
    obtain ⟨base, k, hk, rfl, hword, hbase, hdom⟩ := h.exists_word hfirst
    have heven := lane_of_even hk hbase ha
    have hk' : k.toNat + 2 ≤ 4 := by rcases heven with rfl | rfl <;> decide
    refine ⟨_, rfl, ?_⟩
    rw [Width.number_half, ← UInt16.toNat_toUInt32]
    exact h.write_narrow d hk hbase hdom hword (halfLane_lane hk hbase heven) Nat.two_pos hk' rfl
      (UInt16.toNat_lt value)
  | word =>
    refine ⟨_, rfl, (h.writes d value ha hfirst).trans ?_⟩
    rw [Width.number_word]
    rfl
  | double =>
    obtain ⟨r, hr, hbytes⟩ := h.doubleWrites d value ha hfirst
    refine ⟨r, hr, hbytes.trans ?_⟩
    rw [Width.number_double]
    rfl
  | quad =>
    have ha : 16 ∣ a.toNat := ha
    have hnext : (a + 8).toNat = a.toNat + 8 := ByteMap.toNat_add_ofNat (k := 8) (by omega)
    have hlast : dom (a + 8) := hdom _ (by omega) (by rw [hnext, Width.bytes]; omega)
    obtain ⟨low, hlow, hlowBytes⟩ := h.doubleWrites d (Quad.lo value) (by omega) hfirst
    obtain ⟨high, hhigh, hhighBytes⟩ :=
      h.doubleWrites low.device (a := a + 8) (Quad.hi value) (by omega) hlast
    have hadd : Checked.add32 a 8 = .ok (a + 8) := add32_eight_eq_ok (by omega)
    have hnumber : Width.number .quad value =
        UInt64.toNat (Quad.lo value) + 256 ^ 8 * UInt64.toNat (Quad.hi value) :=
      (Nat.add_comm ..).trans (congrArg _ (Nat.mul_comm ..))
    refine ⟨⟨(), high.device, low.notes ++ high.notes⟩, ?_, ?_⟩
    · simp only [Peripheral.write, writeQuad, hlow, hadd, hhigh, bind, Except.bind]
      rfl
    · rw [hnumber, hhighBytes, hlowBytes]
      exact ByteMap.store_add (k := 8) (by omega) (UInt64.toNat_lt _)

end HoldsBytes

end Peripheral

open Peripheral (HoldsBytes wordAddress)

/-! ## The passive registers -/

namespace PassiveRegisters

/-- The bytes of the words that the registers hold. -/
def bytes (d : PassiveRegisters) : ByteMap := fun a =>
  digit (d.word (wordAddress a)).toNat (a.toNat % 4)

theorem toNat_wordAddress (a : UInt32) : (wordAddress a).toNat = a.toNat - a.toNat % 4 :=
  toNat_and_not_mask a 3 2 rfl

theorem toNat_word (d : PassiveRegisters) {a : UInt32} (ha : 4 ∣ a.toNat) :
    (d.word a).toNat = d.bytes.load a 4 := by
  refine ByteMap.eq_load_of_digits (UInt32.toNat_lt _) fun i hi => ?_
  have hmax := a.toNat_lt
  have hbyte : (a + UInt32.ofNat i).toNat = a.toNat + i := ByteMap.toNat_add_ofNat (by omega)
  have hword : wordAddress (a + UInt32.ofNat i) = a := by
    rw [← UInt32.toNat_inj, toNat_wordAddress, hbyte]
    omega
  rw [bytes, hword, hbyte]
  congr 1
  omega

theorem bytes_writeWord (d : PassiveRegisters) {a : UInt32} (word : UInt32) (ha : 4 ∣ a.toNat) :
    (d.writeWord a word).device.bytes = d.bytes.store a 4 word.toNat := by
  funext a'
  have hword : wordAddress a' = a ↔ a.toNat ≤ a'.toNat ∧ a'.toNat < a.toNat + 4 := by
    rw [← UInt32.toNat_inj, toNat_wordAddress]
    omega
  have hinsert : (d.writeWord a word).device.word (wordAddress a') =
      if wordAddress a' = a then word else d.word (wordAddress a') := by
    show (d.words.insert a word).getD (wordAddress a') 0 = _
    simp only [Std.HashMap.getD_insert, beq_iff_eq, eq_comm (a := a)]
    rfl
  rw [bytes, hinsert, ByteMap.store]
  simp only [hword]
  split
  · congr 1
    omega
  · rfl

/-- The passive registers hold bytes at all addresses. -/
theorem holdsBytes {dom : UInt32 → Prop}
    (hblock : ∀ {a a' : UInt32}, dom a → a'.toNat / 8 = a.toNat / 8 → dom a') :
    HoldsBytes dom bytes :=
  Peripheral.holdsBytes_of_words hblock (fun d _ ha _ => ⟨rfl, d.toNat_word ha⟩)
    (fun d _ word ha _ => d.bytes_writeWord word ha) (fun _ => rfl) (fun _ _ => rfl)
    fun _ _ _ => rfl

end PassiveRegisters

/-! ## The graphics unit -/

namespace GsRegister

/-- The slot of a register. -/
def slot : GsRegister → UInt32
  | .displayMode => 0x12000000
  | .syncMode1 => 0x12000010
  | .syncMode2 => 0x12000020
  | .refresh => 0x12000030
  | .synch1 => 0x12000040
  | .synch2 => 0x12000050
  | .syncv => 0x12000060
  | .frameBuffer1 => 0x12000070
  | .display1 => 0x12000080
  | .frameBuffer2 => 0x12000090
  | .display2 => 0x120000A0
  | .writeBuffer => 0x120000B0
  | .writeData => 0x120000C0
  | .writeStart => 0x120000D0
  | .backgroundColor => 0x120000E0
  | .status => 0x12001000
  | .interruptMask => 0x12001010
  | .busDirection => 0x12001040
  | .signalLabel => 0x12001080

theorem ofAddress?_eq_some_iff {a : UInt32} {register : GsRegister} :
    ofAddress? a = some register ↔ a &&& ~~~0xF = register.slot := by
  constructor
  · intro h
    unfold ofAddress? at h
    split at h <;> cases h
    all_goals assumption
  · intro h
    rw [ofAddress?, h]
    cases register <;> rfl

theorem bounds_of_ofAddress? {a : UInt32} {register : GsRegister}
    (h : ofAddress? a = some register) : 0x12000000 ≤ a.toNat ∧ a.toNat < 0x12002000 := by
  have hslot := congrArg UInt32.toNat (ofAddress?_eq_some_iff.1 h)
  rw [toNat_and_not_mask a 0xF 4 rfl] at hslot
  have hbounds : 0x12000000 ≤ register.slot.toNat ∧ register.slot.toNat + 16 ≤ 0x12002000 := by
    cases register <;> decide
  omega

theorem ofAddress?_congr {a a' : UInt32} (h : a'.toNat / 16 = a.toNat / 16) :
    ofAddress? a' = ofAddress? a := by
  have hslot : a' &&& ~~~0xF = a &&& ~~~0xF := by
    rw [← UInt32.toNat_inj, toNat_and_not_mask a' 0xF 4 rfl, toNat_and_not_mask a 0xF 4 rfl]
    omega
  rw [ofAddress?, hslot]
  rfl

/-- Addresses of one register lie in one slot. -/
theorem slot_eq_of_ofAddress? {a a' : UInt32} {register : GsRegister}
    (h : ofAddress? a = some register) (h' : ofAddress? a' = some register) :
    a'.toNat / 16 = a.toNat / 16 := by
  have hslot := congrArg UInt32.toNat
    ((ofAddress?_eq_some_iff.1 h').trans (ofAddress?_eq_some_iff.1 h).symm)
  rw [toNat_and_not_mask a' 0xF 4 rfl, toNat_and_not_mask a 0xF 4 rfl] at hslot
  omega

end GsRegister

namespace Gs

/-- The bytes of the registers, in the first halves of their slots. -/
def bytes (d : Gs) : ByteMap := fun a =>
  if a.toNat % 16 < 8 then
    (GsRegister.ofAddress? a).elim 0 fun register => digit (d.get register).toNat (a.toNat % 8)
  else 0

/-- The address lies in the first half of the slot of a register other than the status. -/
def HeldAt (a : UInt32) : Prop :=
  a.toNat % 16 < 8 ∧ ∃ register, register ≠ .status ∧ GsRegister.ofAddress? a = some register

theorem readDouble_of_register (d : Gs) {a : UInt32} {register : GsRegister}
    (h : GsRegister.ofAddress? a = some register) :
    d.readDouble a = ⟨d.get register, d, []⟩ := by
  simp only [readDouble, h]

section Slot

variable {a : UInt32} {register : GsRegister} (ha : 8 ∣ a.toNat) (hfirst : a.toNat % 16 < 8)
  (hregister : GsRegister.ofAddress? a = some register)
include ha hfirst hregister

theorem toNat_get (d : Gs) : (d.get register).toNat = d.bytes.load a 8 := by
  refine ByteMap.eq_load_of_digits (UInt64.toNat_lt _) fun i hi => ?_
  have hmax := a.toNat_lt
  have hbyte : (a + UInt32.ofNat i).toNat = a.toNat + i := ByteMap.toNat_add_ofNat (by omega)
  have hslot : GsRegister.ofAddress? (a + UInt32.ofNat i) = some register :=
    (GsRegister.ofAddress?_congr (by omega)).trans hregister
  rw [bytes, hslot, hbyte, if_pos (by omega), Option.elim_some]
  congr 1
  omega

theorem bytes_put (d : Gs) (value : UInt64) :
    (d.put register value).bytes = d.bytes.store a 8 value.toNat := by
  funext a'
  simp only [ByteMap.store, bytes]
  by_cases hin : a.toNat ≤ a'.toNat ∧ a'.toNat < a.toNat + 8
  · have hslot : GsRegister.ofAddress? a' = some register :=
      (GsRegister.ofAddress?_congr (by omega)).trans hregister
    rw [if_pos hin, if_pos (by omega), hslot, Option.elim_some, get_put]
    congr 1
    omega
  · rw [if_neg hin]
    split
    · cases hregister' : GsRegister.ofAddress? a' with
      | none => rfl
      | some register' =>
        have hne : register ≠ register' := by
          rintro rfl
          have hslot := GsRegister.slot_eq_of_ofAddress? hregister hregister'
          omega
        rw [Option.elim_some, Option.elim_some, d.get_put_of_ne value hne]
    · rfl

theorem bytes_writeDouble (d : Gs) (value : UInt64) (hne : register ≠ .status) :
    (d.writeDouble a value).device.bytes = d.bytes.store a 8 value.toNat := by
  have hset : (d.writeDouble a value).device = d.put register value := by
    simp only [writeDouble, hregister]
    cases register <;> first | rfl | exact absurd rfl hne
  rw [hset, bytes_put ha hfirst hregister]

end Slot

/-- A word is the half of a doubleword from its byte `k` up. -/
theorem exists_half {a : UInt32} (ha : 4 ∣ a.toNat) :
    ∃ base k, (k = 0 ∨ k = 4) ∧ a = base + UInt32.ofNat k ∧ doubleAddress a = base ∧
      8 ∣ base.toNat ∧ base.toNat + k = a.toNat ∧ (wordLane a).toNat = 8 * k := by
  have hmax := a.toNat_lt
  have hdouble : (doubleAddress a).toNat = a.toNat - a.toNat % 8 :=
    toNat_and_not_mask a 7 3 rfl
  have hbit : (a &&& 4).toNat = (a.toNat.testBit 2).toNat * 4 :=
    (UInt32.toNat_and a 4).trans (Nat.and_two_pow a.toNat 2)
  have hlane : (wordLane a).toNat = 8 * (a.toNat % 8) := by
    rw [wordLane, UInt32.toNat_toUInt64, UInt32.toNat_mul, hbit, Nat.testBit_eq_decide_div_mod_eq]
    show (decide (a.toNat / 4 % 2 = 1)).toNat * 4 * 8 % 2 ^ 32 = _
    by_cases hodd : a.toNat / 4 % 2 = 1
    · rw [decide_eq_true hodd]
      show 32 = 8 * (a.toNat % 8)
      omega
    · rw [decide_eq_false hodd]
      show 0 = 8 * (a.toNat % 8)
      omega
  have hsum : a = doubleAddress a + UInt32.ofNat (a.toNat % 8) := by
    rw [← UInt32.toNat_inj, ByteMap.toNat_add_ofNat (by omega), hdouble]
    omega
  exact ⟨doubleAddress a, a.toNat % 8, by omega, hsum, rfl, by omega, by omega, hlane⟩

/-- The graphics unit holds bytes in the first halves of the slots of all registers but the status,
whose event flags act when written. -/
theorem holdsBytes : HoldsBytes HeldAt bytes where
  block {a a'} hdom h := by
    obtain ⟨hfirst, register, hne, hregister⟩ := hdom
    exact ⟨by omega, register, hne, (GsRegister.ofAddress?_congr (by omega)).trans hregister⟩
  reads d a ha hdom := by
    refine ⟨device_readWord d a, ?_⟩
    obtain ⟨hfirst, register, -, hregister⟩ := hdom
    obtain ⟨base, k, hk, rfl, hdouble, hbase, hsum, hlane⟩ := exists_half ha
    have hslot : GsRegister.ofAddress? base = some register :=
      (GsRegister.ofAddress?_congr (by omega)).trans hregister
    have hshift : (wordLane (base + UInt32.ofNat k)).toNat % 64 = 8 * k := by omega
    show ((d.readDouble (doubleAddress _)).value >>> wordLane _).toUInt32.toNat = _
    rw [hdouble, d.readDouble_of_register hslot, UInt64.toNat_toUInt32,
      UInt64.toNat_shiftRight, hshift, Nat.shiftRight_eq_div_pow,
      toNat_get hbase (by omega) hslot d, ByteMap.load_part (show k + 4 ≤ 8 by omega),
      Nat.pow_mul 2 8 k]
    rfl
  writes d a word ha hdom := by
    obtain ⟨hfirst, register, hne, hregister⟩ := hdom
    obtain ⟨base, k, hk, rfl, hdouble, hbase, hsum, hlane⟩ := exists_half ha
    have hmax := (base + UInt32.ofNat k).toNat_lt
    have hslot : GsRegister.ofAddress? base = some register :=
      (GsRegister.ofAddress?_congr (by omega)).trans hregister
    have hread := d.readDouble_of_register hslot
    have hwrite : (d.writeWord (base + UInt32.ofNat k) word).device =
        (d.writeDouble base (d.get register &&&
          ~~~((0xFFFFFFFF : UInt64) <<< wordLane (base + UInt32.ofNat k)) |||
          word.toUInt64 <<< wordLane (base + UInt32.ofNat k))).device := by
      rw [writeWord, hdouble, hslot]
      cases register
      case status => exact absurd rfl hne
      all_goals rw [hread]
    show (d.writeWord _ word).device.bytes = _
    rw [hwrite, bytes_writeDouble hbase (by omega) hslot d _ hne]
    have hword : word.toUInt64.toNat < 2 ^ (8 * 4) := UInt32.toNat_lt word
    refine ByteMap.store_part (by omega) (show k + 4 ≤ 8 by omega) (by decide) fun i hi => ?_
    rw [digit_replaceLane64 hlane (by omega) rfl hword hi, toNat_get hbase (by omega) hslot d,
      ByteMap.digit_load hi]
    rfl
  carriesAll {a} hdom := by
    obtain ⟨-, register, hne, hregister⟩ := hdom
    show retained a = 0xFFFFFFFF
    rw [retained, hregister]
    cases register <;> first | rfl | exact absurd rfl hne
  doubleReads d a ha hdom := by
    obtain ⟨hfirst, register, -, hregister⟩ := hdom
    refine ⟨_, rfl, ?_⟩
    show (d.readDouble a).device = d ∧ (d.readDouble a).value.toNat = _
    rw [d.readDouble_of_register hregister]
    exact ⟨rfl, toNat_get ha hfirst hregister d⟩
  doubleWrites d a value ha hdom := by
    obtain ⟨hfirst, register, hne, hregister⟩ := hdom
    exact ⟨_, rfl, bytes_writeDouble ha hfirst hregister d value hne⟩

end Gs

end R5900
