import R5900.Proofs.Bytes
import R5900.Proofs.Execute.Instruction
import R5900.Proofs.Execute.Store
import R5900.Simulation

/-!
# Partial stores to the interrupt controller

A partial store reads the word or doubleword that contains its address, replaces the bytes that it
stores and writes the whole back. At the interrupt controller the bytes that are not stored act too:
they carry the register's own bits, and a status bit that is written as one is acknowledged, a mask
bit toggled.

* `PartStoreOp.testBit_write`: which bits a partial store writes, those of the source register
  (`PartStoreOp.storedBit?`) and those read before.
* `Instruction.intc_of_storePart`: so a status or mask bit in a stored byte is acknowledged or
  toggled by the stored bit, and one in any other byte is cleared whatever it was.
* `Instruction.swr_acknowledges_unstored`: a store that loses an interrupt in this way.
-/

namespace R5900

open Exec

/-! ## The bits that a partial store places -/

section Place

variable {i : Nat}

theorem testBit_placeAbove32 (old new : UInt32) {n : UInt32} (hn : n.toNat < 32)
    (hi : i < 32) : (placeAbove32 old new n).toNat.testBit i =
      if i < n.toNat then old.toNat.testBit i
      else new.toNat.testBit (i - n.toNat) := by
  have hbit := getLsbD_placeAbove old.toBitVec new.toBitVec hi hn
  have hplace : (placeAbove32 old new n).toBitVec =
      old.toBitVec &&& (1#32 <<< (n.toNat % 32) - 1#32) |||
        new.toBitVec <<< (n.toNat % 32) := rfl
  rw [Nat.mod_eq_of_lt hn] at hplace
  rw [← hplace] at hbit
  exact hbit

theorem testBit_placeBelow32 (old new : UInt32) {n : UInt32} (hn : n.toNat < 32)
    (hi : i < 32) : (placeBelow32 old new n).toNat.testBit i =
      if n.toNat + i < 32 then new.toNat.testBit (n.toNat + i)
      else old.toNat.testBit i := by
  have hbit := getLsbD_placeBelow old.toBitVec new.toBitVec hi (n := n.toNat)
  have hplace : (placeBelow32 old new n).toBitVec =
      old.toBitVec &&& ~~~(BitVec.allOnes 32 >>> (n.toNat % 32)) |||
        new.toBitVec >>> (n.toNat % 32) := rfl
  rw [Nat.mod_eq_of_lt hn] at hplace
  rw [← hplace] at hbit
  exact hbit

theorem testBit_placeAbove64 (old new : UInt64) {n : UInt64} (hn : n.toNat < 64)
    (hi : i < 64) : (placeAbove64 old new n).toNat.testBit i =
      if i < n.toNat then old.toNat.testBit i
      else new.toNat.testBit (i - n.toNat) := by
  have hbit := getLsbD_placeAbove old.toBitVec new.toBitVec hi hn
  have hplace : (placeAbove64 old new n).toBitVec =
      old.toBitVec &&& (1#64 <<< (n.toNat % 64) - 1#64) |||
        new.toBitVec <<< (n.toNat % 64) := rfl
  rw [Nat.mod_eq_of_lt hn] at hplace
  rw [← hplace] at hbit
  exact hbit

theorem testBit_placeBelow64 (old new : UInt64) {n : UInt64} (hn : n.toNat < 64)
    (hi : i < 64) : (placeBelow64 old new n).toNat.testBit i =
      if n.toNat + i < 64 then new.toNat.testBit (n.toNat + i)
      else old.toNat.testBit i := by
  have hbit := getLsbD_placeBelow old.toBitVec new.toBitVec hi (n := n.toNat)
  have hplace : (placeBelow64 old new n).toBitVec =
      old.toBitVec &&& ~~~(BitVec.allOnes 64 >>> (n.toNat % 64)) |||
        new.toBitVec >>> (n.toNat % 64) := rfl
  rw [Nat.mod_eq_of_lt hn] at hplace
  rw [← hplace] at hbit
  exact hbit

end Place

namespace PartStoreOp

/-- The low bits of an address, which count bytes in the word or doubleword of the store. -/
def lowMask : PartStoreOp → UInt32
  | .swl | .swr => 3
  | .sdl | .sdr => 7

/-- The address of the word or doubleword that contains a byte. -/
def aligned (op : PartStoreOp) (a : UInt32) : UInt32 := a &&& ~~~op.lowMask

/-- The position of a byte in its word or doubleword. -/
def position (op : PartStoreOp) (a : UInt32) : Nat := (a &&& op.lowMask).toNat

/-- Which bit of the source register goes to the bit `i` of the word or doubleword, if its byte is
stored. The left stores store the bytes up to the one at `k`, with the highest byte of the register
there; the right stores store the bytes from there up, with the lowest byte there. -/
def storedBit? (op : PartStoreOp) (k i : Nat) : Option Nat :=
  match op with
  | .swl => if i / 8 ≤ k then some (i + 8 * (3 - k)) else none
  | .swr => if k ≤ i / 8 then some (i - 8 * k) else none
  | .sdl => if i / 8 ≤ k then some (i + 8 * (7 - k)) else none
  | .sdr => if k ≤ i / 8 then some (i - 8 * k) else none

/-- The bit that the store puts at the bit `i` of the word or doubleword, if its byte is stored. -/
def stored? (op : PartStoreOp) (rt : Gpr) (a : UInt32) (c : Core) (i : Nat) : Option Bool :=
  (op.storedBit? (op.position a) i).map (c.double rt).toNat.testBit

/-- The number that a partial store reads. -/
def held (op : PartStoreOp) (a : UInt32) (m : Machine) : Nat :=
  match op with
  | .swl | .swr => Width.number .word (m.peek .word (op.aligned a))
  | .sdl | .sdr => Width.number .double (m.peek .double (op.aligned a))

theorem position_le (op : PartStoreOp) (a : UInt32) : op.position a ≤ op.lowMask.toNat := by
  rw [position, UInt32.toNat_and]
  exact Nat.and_le_right

theorem testBit_word (c : Core) (r : Gpr) {i : Nat} (hi : i < 32) :
    (c.word r).toNat.testBit i = (c.double r).toNat.testBit i := by
  rw [Core.word, UInt64.toNat_toUInt32, Nat.testBit_mod_two_pow, decide_eq_true hi, Bool.true_and]

section Amount

variable {k : UInt32}

theorem toNat_eight_mul (hk : k.toNat ≤ 7) : (8 * k).toNat = 8 * k.toNat := by
  rw [UInt32.toNat_mul]
  show 8 * k.toNat % 2 ^ 32 = 8 * k.toNat
  omega

theorem toNat_eight_mul64 (hk : k.toNat ≤ 7) : (8 * k.toUInt64).toNat = 8 * k.toNat := by
  rw [UInt64.toNat_mul, UInt32.toNat_toUInt64]
  show 8 * k.toNat % 2 ^ 64 = 8 * k.toNat
  omega

theorem toNat_sub_eight_mul (hk : k.toNat ≤ 3) : (24 - 8 * k).toNat = 24 - 8 * k.toNat := by
  have hmul := toNat_eight_mul (k := k) (by omega)
  have hle : 8 * k ≤ 24 := by
    rw [UInt32.le_iff_toNat_le, hmul]
    show 8 * k.toNat ≤ 24
    omega
  rw [UInt32.toNat_sub_of_le _ _ hle, hmul]
  rfl

theorem toNat_sub_eight_mul64 (hk : k.toNat ≤ 7) :
    (56 - 8 * k.toUInt64).toNat = 56 - 8 * k.toNat := by
  have hmul := toNat_eight_mul64 hk
  have hle : 8 * k.toUInt64 ≤ 56 := by
    rw [UInt64.le_iff_toNat_le, hmul]
    show 8 * k.toNat ≤ 56
    omega
  rw [UInt64.toNat_sub_of_le _ _ hle, hmul]
  rfl

end Amount

/-- **A partial store writes the bits that it stores, and around them those it has read.** -/
theorem testBit_write (op : PartStoreOp) (rt : Gpr) (a : UInt32) (m : Machine) {i : Nat}
    (hi : i < 8 * (op.write rt a m).width.bytes) :
    ((op.write rt a m).width.number (op.write rt a m).value).testBit i =
      (op.stored? rt a m.core i).getD ((op.held a m).testBit i) := by
  have hk := op.position_le a
  cases op with
  | swl =>
    have hk : (a &&& 3).toNat ≤ 3 := hk
    have hi : i < 32 := hi
    have hamount := toNat_sub_eight_mul hk
    have hbit := testBit_placeBelow32 (m.peek .word (a &&& ~~~3)) (m.core.word rt)
      (n := 24 - 8 * (a &&& 3)) (by omega) hi
    rw [write, held, aligned, lowMask, Width.number_word, Width.number_word, hbit,
      hamount, stored?, storedBit?, position, lowMask]
    by_cases hin : i / 8 ≤ (a &&& 3).toNat
    · rw [if_pos hin, if_pos (by omega), testBit_word _ _ (by omega), Option.map_some,
        Option.getD_some]
      exact congrArg _ (by omega)
    · rw [if_neg hin, if_neg (by omega), Option.map_none, Option.getD_none]
  | swr =>
    have hk : (a &&& 3).toNat ≤ 3 := hk
    have hi : i < 32 := hi
    have hamount := toNat_eight_mul (k := a &&& 3) (by omega)
    have hbit := testBit_placeAbove32 (m.peek .word (a &&& ~~~3)) (m.core.word rt)
      (n := 8 * (a &&& 3)) (by omega) hi
    rw [write, held, aligned, lowMask, Width.number_word, Width.number_word, hbit,
      hamount, stored?, storedBit?, position, lowMask]
    by_cases hin : (a &&& 3).toNat ≤ i / 8
    · rw [if_pos hin, if_neg (by omega), testBit_word _ _ (by omega), Option.map_some,
        Option.getD_some]
    · rw [if_neg hin, if_pos (by omega), Option.map_none, Option.getD_none]
  | sdl =>
    have hk : (a &&& 7).toNat ≤ 7 := hk
    have hi : i < 64 := hi
    have hamount := toNat_sub_eight_mul64 hk
    have hbit := testBit_placeBelow64 (m.peek .double (a &&& ~~~7)) (m.core.double rt)
      (n := 56 - 8 * (a &&& 7).toUInt64) (by omega) hi
    rw [write, held, aligned, lowMask, Width.number_double, Width.number_double, hbit,
      hamount, stored?, storedBit?, position, lowMask]
    by_cases hin : i / 8 ≤ (a &&& 7).toNat
    · rw [if_pos hin, if_pos (by omega), Option.map_some, Option.getD_some]
      exact congrArg _ (by omega)
    · rw [if_neg hin, if_neg (by omega), Option.map_none, Option.getD_none]
  | sdr =>
    have hk : (a &&& 7).toNat ≤ 7 := hk
    have hi : i < 64 := hi
    have hamount := toNat_eight_mul64 hk
    have hbit := testBit_placeAbove64 (m.peek .double (a &&& ~~~7)) (m.core.double rt)
      (n := 8 * (a &&& 7).toUInt64) (by omega) hi
    rw [write, held, aligned, lowMask, Width.number_double, Width.number_double, hbit,
      hamount, stored?, storedBit?, position, lowMask]
    by_cases hin : (a &&& 7).toNat ≤ i / 8
    · rw [if_pos hin, if_neg (by omega), Option.map_some, Option.getD_some]
    · rw [if_neg hin, if_pos (by omega), Option.map_none, Option.getD_none]

end PartStoreOp

/-! ## The interrupt controller -/

namespace Intc

variable {w : Width} (d : Intc) (value : w.Value)

/-- A word or doubleword at the status register acknowledges by its low word. -/
theorem writeWords_status (hw : w = .word ∨ w = .double) :
    d.writeWords (wordWrites w statusAddress value) =
      { d with status := d.status &&& ~~~UInt32.ofNat (w.number value) } := by
  rcases hw with rfl | rfl
  · rw [Width.number_word, UInt32.ofNat_toNat]
    rfl
  · rw [Width.number_double]
    rfl

/-- A word or doubleword at the mask register toggles by its low word. -/
theorem writeWords_mask (hw : w = .word ∨ w = .double) :
    d.writeWords (wordWrites w maskAddress value) =
      { d with mask := d.mask ^^^ field32 (UInt32.ofNat (w.number value)) 0 15 } := by
  rcases hw with rfl | rfl
  · rw [Width.number_word, UInt32.ofNat_toNat]
    rfl
  · rw [Width.number_double]
    rfl

end Intc

/-- The low word of a doubleword that is put together. -/
theorem ofNat_joinDouble (low high : UInt32) : UInt32.ofNat (joinDouble low high).toNat = low := by
  refine UInt32.toNat_inj.1 ?_
  rw [UInt32.toNat_ofNat', toNat_joinDouble, Nat.add_mul_mod_self_right,
    Nat.mod_eq_of_lt low.toNat_lt]

/-- A word or doubleword read at a register of the controller has the register as its low word. -/
theorem Intc.exists_read {w : Width} {address : UInt32} (d : Intc) (hw : w = .word ∨ w = .double)
    (haddress : address = statusAddress ∨ address = maskAddress) :
    ∃ r, Peripheral.read w d address = .ok r ∧
      UInt32.ofNat (w.number r.value) = (d.readWord address).value := by
  rcases hw with rfl | rfl
  · exact ⟨_, rfl, by rw [Width.number_word, UInt32.ofNat_toNat]; rfl⟩
  · rcases haddress with rfl | rfl <;>
      exact ⟨_, rfl, by rw [Width.number_double]; exact ofNat_joinDouble ..⟩

namespace Machine

variable {m : Machine} {a address : UInt32}

theorem peek_of_intc {w : Width} {r : Reply Intc w.Value}
    (hlocation : Location.ofVirtual a = .bus address)
    (hroute : m.bus.route address = .device .intc)
    (hread : Peripheral.read w m.intc address = .ok r) : m.peek w a = r.value := by
  obtain ⟨core, bus, journal⟩ := m
  have hroute : bus.route address = .device .intc := hroute
  have hread : Peripheral.read w bus.devices.intc address = .ok r := hread
  simp only [peek, Exec.run, Machine.read, hlocation, Bus.read, hroute, Bus.readRoute, Bank.read,
    hread, Bank.answer]

end Machine

namespace PartStoreOp

variable {op : PartStoreOp} {rt : Gpr} {a address : UInt32} {m : Machine}

/-- A partial store at a register of the controller reads the register, in its low word. -/
theorem ofNat_held (hlocation : Location.ofVirtual (op.aligned a) = .bus address)
    (hroute : m.bus.route address = .device .intc)
    (haddress : address = Intc.statusAddress ∨ address = Intc.maskAddress) :
    UInt32.ofNat (op.held a m) = (m.intc.readWord address).value := by
  have hword : ∀ w : Width, w = .word ∨ w = .double →
      UInt32.ofNat (w.number (m.peek w (op.aligned a))) = (m.intc.readWord address).value := by
    intro w hw
    obtain ⟨r, hread, hvalue⟩ := m.intc.exists_read hw haddress
    rw [Machine.peek_of_intc hlocation hroute hread, hvalue]
  cases op with
  | swl => exact hword .word (.inl rfl)
  | swr => exact hword .word (.inl rfl)
  | sdl => exact hword .double (.inr rfl)
  | sdr => exact hword .double (.inr rfl)

theorem width_write (op : PartStoreOp) (rt : Gpr) (a : UInt32) (m : Machine) :
    (op.write rt a m).width = .word ∨ (op.write rt a m).width = .double := by
  cases op with
  | swl => exact .inl rfl
  | swr => exact .inl rfl
  | sdl => exact .inr rfl
  | sdr => exact .inr rfl

theorem address_write (op : PartStoreOp) : (op.write rt a m).address = op.aligned a := by
  cases op <;> rfl

/-- The bits of the low word that a partial store writes to a register of the controller. -/
theorem testBit32_write (rt : Gpr) (hlocation : Location.ofVirtual (op.aligned a) = .bus address)
    (hroute : m.bus.route address = .device .intc)
    (haddress : address = Intc.statusAddress ∨ address = Intc.maskAddress) {p : UInt32}
    (hp : p.toNat < 32) :
    testBit32 (UInt32.ofNat ((op.write rt a m).width.number (op.write rt a m).value)) p =
      (op.stored? rt a m.core p.toNat).getD (testBit32 (m.intc.readWord address).value p) := by
  have hi : p.toNat < 8 * (op.write rt a m).width.bytes := by
    rcases op.width_write rt a m with h | h <;> rw [h, Width.bytes] <;> omega
  rw [testBit32_ofNat _ hp, testBit_write _ _ _ _ hi, ← ofNat_held hlocation hroute haddress,
    testBit32_ofNat _ hp]

end PartStoreOp

namespace Machine

variable {m : Machine} {address : UInt32} {write : MemoryWrite}

theorem intcWrites_of_route (hlocation : Location.ofVirtual write.address = .bus address)
    (hroute : m.bus.route address = .device .intc) :
    m.intcWrites write = Intc.wordWrites write.width address write.value := by
  rw [intcWrites, hlocation]
  exact if_pos hroute

end Machine

namespace Instruction

/-- A partial store is done, whatever the address. -/
theorem exists_execute_storePart (op : PartStoreOp) (rt : Gpr) (offset : UInt16) (base : Gpr)
    (pc : UInt32) (m : Machine) :
    ∃ m', (execute (.storePart op rt offset base) pc).run m = .done (pc + 4) m' := by
  obtain ⟨m', hrun, -⟩ := Exec.run_storePart op rt (m.core.addressOf base offset) m
  exact ⟨m', run_storePart hrun⟩

/-- **A partial store at a register of the interrupt controller acts on the bits that it stores and
resets those that it does not store.** A status bit whose byte is stored is cleared exactly by a
stored one and a mask bit is toggled exactly by a stored one, but a bit of the register whose byte
is not stored is zero afterwards, whatever it was: it is read and written back. -/
theorem intc_of_storePart (op : PartStoreOp) (rt : Gpr) (offset : UInt16) (base : Gpr) (pc : UInt32)
    {m : Machine} {address : UInt32}
    (hlocation : Location.ofVirtual (op.aligned (m.core.addressOf base offset)) = .bus address)
    (hroute : m.bus.route address = .device .intc)
    (haddress : address = Intc.statusAddress ∨ address = Intc.maskAddress) :
    ∃ m', (execute (.storePart op rt offset base) pc).run m = .done (pc + 4) m' ∧
      (address = Intc.statusAddress → m'.intc.mask = m.intc.mask ∧
        ∀ p : UInt32, p.toNat < 32 → testBit32 m'.intc.status p =
          match op.stored? rt (m.core.addressOf base offset) m.core p.toNat with
          | some stored => testBit32 m.intc.status p && !stored
          | none => false) ∧
      (address = Intc.maskAddress → m'.intc.status = m.intc.status ∧
        ∀ p : UInt32, p.toNat < 15 → testBit32 m'.intc.mask p =
          match op.stored? rt (m.core.addressOf base offset) m.core p.toNat with
          | some stored => testBit32 m.intc.mask p ^^ stored
          | none => false) := by
  obtain ⟨m', hexecute⟩ := exists_execute_storePart op rt offset base pc m
  have hintc := intc_of_execute _ _ _ _ _ hexecute
  have hwrites : m.intcWrites (op.write rt (m.core.addressOf base offset) m) =
      Intc.wordWrites _ address (op.write rt (m.core.addressOf base offset) m).value :=
    Machine.intcWrites_of_route (by rw [op.address_write, hlocation]) hroute
  have hintc : m'.intc = m.intc.writeWords (Intc.wordWrites _ address
      (op.write rt (m.core.addressOf base offset) m).value) := by
    rw [← hwrites]
    exact hintc
  have hbit := fun p => PartStoreOp.testBit32_write rt hlocation hroute haddress (p := p)
  refine ⟨m', hexecute, ?_, ?_⟩
  · rintro rfl
    rw [Intc.writeWords_status _ _ (op.width_write ..)] at hintc
    refine ⟨congrArg (·.mask) hintc, fun p hp => ?_⟩
    have hread : (m.intc.readWord Intc.statusAddress).value = m.intc.status := rfl
    rw [hintc, testBit32_and, testBit32_not, hbit p hp, hread]
    cases op.stored? rt (m.core.addressOf base offset) m.core p.toNat with
    | some stored => rfl
    | none => exact Bool.and_not_self _
  · rintro rfl
    rw [Intc.writeWords_mask _ _ (op.width_write ..)] at hintc
    refine ⟨congrArg (·.status) hintc, fun p hp => ?_⟩
    have hp32 : p.toNat < 32 := by omega
    have hread : (m.intc.readWord Intc.maskAddress).value = m.intc.mask := rfl
    rw [hintc, testBit32_xor, Intc.testBit32_low_mask _ hp32, decide_eq_true hp, Bool.true_and,
      hbit p hp32, hread]
    cases op.stored? rt (m.core.addressOf base offset) m.core p.toNat with
    | some stored => rfl
    | none => exact Bool.xor_self _

/-- `SWR` of the zero register with the address of the highest byte of the mask register: the mask
bits in the lower bytes are reset. -/
theorem intc_of_storePart_mask :
    let m : Machine :=
      ⟨Core.initial.setWord ⟨8⟩ Intc.maskAddress,
        { Bus.initial with
          map := standardMap, devices := { Bank.initial with intc := ⟨0x4, 0x6⟩ } }, .silent⟩
    Location.ofVirtual (PartStoreOp.aligned .swr (m.core.addressOf ⟨8⟩ 3)) =
      .bus Intc.maskAddress ∧ m.bus.route Intc.maskAddress = .device .intc ∧
    ∃ m', (execute (.storePart .swr ⟨0⟩ 3 ⟨8⟩) 0).run m = .done (0 + 4) m' ∧
      m'.intc.status = m.intc.status ∧
      testBit32 m.intc.mask 2 = true ∧ testBit32 m'.intc.mask 2 = false := by
  intro m
  have hlocation : Location.ofVirtual (PartStoreOp.aligned .swr (m.core.addressOf ⟨8⟩ 3)) =
      .bus Intc.maskAddress := by decide +kernel
  have hroute : m.bus.route Intc.maskAddress = .device .intc := rfl
  obtain ⟨m', hrun, -, hmask⟩ :=
    intc_of_storePart .swr ⟨0⟩ 3 ⟨8⟩ 0 hlocation hroute (.inr rfl)
  obtain ⟨hstatus, hbits⟩ := hmask rfl
  have hkept : PartStoreOp.stored? .swr ⟨0⟩ (m.core.addressOf ⟨8⟩ 3) m.core 2 = none := by
    decide +kernel
  refine ⟨hlocation, hroute, m', hrun, hstatus, by decide, ?_⟩
  rw [hbits 2 (by decide)]
  show (match PartStoreOp.stored? .swr ⟨0⟩ (m.core.addressOf ⟨8⟩ 3) m.core 2 with
    | some stored => testBit32 m.intc.mask 2 ^^ stored
    | none => false) = false
  rw [hkept]

/-- `SWR` with the address of the highest byte of the status register stores that byte only, and a
pending interrupt of the first timer, in another byte, is lost. -/
theorem swr_acknowledges_unstored :
    let m : Machine :=
      ⟨Core.initial.setWord ⟨8⟩ Intc.statusAddress,
        { Bus.initial with
          map := standardMap, devices := { Bank.initial with intc := ⟨0x200, 0⟩ } }, .silent⟩
    let a := m.core.addressOf ⟨8⟩ 3
    Location.ofVirtual (PartStoreOp.aligned .swr a) = .bus Intc.statusAddress ∧
    PartStoreOp.stored? .swr ⟨0⟩ a m.core 9 = none ∧
    testBit32 m.intc.status 9 = true ∧
    ∃ m', (execute (.storePart .swr ⟨0⟩ 3 ⟨8⟩) 0).run m = .done 4 m' ∧
      testBit32 m'.intc.status 9 = false := by
  intro m a
  obtain ⟨m', hexecute⟩ := exists_execute_storePart .swr ⟨0⟩ 3 ⟨8⟩ 0 m
  refine ⟨by decide +kernel, by decide +kernel, by decide +kernel, m', hexecute, ?_⟩
  rw [intc_of_execute _ _ _ _ _ hexecute]
  decide +kernel

end Instruction

end R5900
