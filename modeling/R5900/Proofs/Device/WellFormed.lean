import R5900.Proofs.Device.NarrowWrite

/-!
# Registers that are never out of range

Some registers of the devices hold less than a word can: bits that no source latches, flags that
nothing sets, a counter that stops. For each device, `WellFormed` says what its registers are
limited to; the device starts out so, and accesses of every width keep it so (`keeps_wellFormed`),
as does what the device does of its own.

* `Bank.WellFormed`: all of these. Reads and writes of every unit keep them
  (`Bank.wellFormed_read`, `Bank.wellFormed_write`).
-/

namespace R5900

open Peripheral (Keeps)

/-! ## The interrupt controller -/

namespace Intc

/-- Only the bits of the fifteen sources are ever set. -/
structure WellFormed (d : Intc) : Prop where
  status : d.status < 0x8000
  mask : d.mask < 0x8000

theorem wellFormed_initial : initial.WellFormed := ⟨by decide, by decide⟩

theorem wellFormed_writeWord {d : Intc} (hd : d.WellFormed) (address value : UInt32) :
    (d.writeWord address value).device.WellFormed := by
  have hstatus : d.status.toNat < 2 ^ 15 := hd.status
  have hmask : d.mask.toNat < 2 ^ 15 := hd.mask
  unfold writeWord
  split
  · refine ⟨?_, hd.mask⟩
    show (d.status &&& ~~~value).toNat < 2 ^ 15
    rw [UInt32.toNat_and]
    exact Nat.lt_of_le_of_lt Nat.and_le_left hstatus
  · split
    · refine ⟨hd.status, ?_⟩
      have hfield : (field32 value 0 15).toNat < 2 ^ 15 :=
        Nat.lt_succ_of_le (UInt32.le_iff_toNat_le.1 (field32_le value 0 15))
      show (d.mask ^^^ field32 value 0 15).toNat < 2 ^ 15
      rw [UInt32.toNat_xor]
      exact Nat.xor_lt_two_pow hmask hfield
    · exact hd

theorem keeps_wellFormed : Keeps WellFormed :=
  Peripheral.keeps_of_words (fun d address hd => (device_readWord d address).symm ▸ hd)
    (fun _ address value hd => wellFormed_writeWord hd address value) (fun _ _ => rfl)
    (fun _ _ _ => rfl)

/-- Latching a source keeps the controller well formed. -/
theorem wellFormed_raise {d : Intc} (hd : d.WellFormed) (source : InterruptSource) :
    (d.raise source).WellFormed := by
  have hstatus : d.status.toNat < 2 ^ 15 := hd.status
  have hbit : ((1 : UInt32) <<< source.bit).toNat < 2 ^ 15 := by cases source <;> decide
  refine ⟨?_, hd.mask⟩
  show (d.status &&& ~~~(1 <<< source.bit) ||| 1 <<< source.bit).toNat < 2 ^ 15
  rw [UInt32.toNat_or, UInt32.toNat_and]
  exact Nat.or_lt_two_pow (Nat.lt_of_le_of_lt Nat.and_le_left hstatus) hbit

end Intc

/-! ## The timers -/

namespace Timer

/-- The prescalers are bounded, and no interrupt that a timer has raised is left over. -/
structure WellFormed (t : Timer) : Prop where
  bounded : t.Bounded
  raised : t.raised = 0

theorem wellFormed_initial : initial.WellFormed := ⟨bounded_initial, rfl⟩

theorem raised_writeWord (t : Timer) (address word : UInt32) :
    (t.writeWord address word).device.raised = t.raised := by
  unfold writeWord
  split
  · rfl
  · dsimp only
    split
    case h_4 => split <;> rfl
    all_goals rfl

theorem keeps_wellFormed : Keeps WellFormed :=
  Peripheral.keeps_of_words (fun t address ht => (device_readWord t address).symm ▸ ht)
    (fun t address value ht => ⟨bounded_writeWord ht.bounded address value,
      (raised_writeWord t address value).trans ht.raised⟩)
    (fun _ _ => rfl) (fun _ _ _ => rfl)

/-- The timers are well formed after a bus cycle, once the interrupts are taken. -/
theorem wellFormed_step {t t' : Timer} (ht : t.WellFormed) (h : t.step = .ok t') :
    t'.take.2.WellFormed := by
  obtain ⟨t₁, hstep, ht₁⟩ := step_eq_ok ht.bounded
  rw [h] at hstep
  cases hstep
  exact ⟨ht₁, rfl⟩

end Timer

/-! ## The graphics unit -/

namespace Gs

/-- The status register shows the revision and, of its other bits, none but vertical sync and the
displayed field. -/
def WellFormed (d : Gs) : Prop := d.get .status &&& ~~~0x2008 = 0x1B0000

theorem wellFormed_initial : initial.WellFormed := by
  show initial.get .status &&& ~~~0x2008 = 0x1B0000
  decide

theorem get_put_of_ne (d : Gs) {register register' : GsRegister} (value : UInt64)
    (h : register ≠ register') : (d.put register value).get register' = d.get register' := by
  have hindex : register.index.val ≠ register'.index.val := by
    cases register <;> cases register' <;> first | decide | exact absurd rfl h
  exact Vector.getElem_set_ne register.index.isLt register'.index.isLt hindex

theorem wellFormed_vblank {d : Gs} (hd : d.WellFormed) : d.vblank.2.WellFormed := by
  show (d.put .status _).get .status &&& ~~~0x2008 = 0x1B0000
  rw [get_put, putBit64_and _ _ (by decide), putBit64_and _ _ (by decide)]
  exact hd

theorem wellFormed_set {d : Gs} (hd : d.WellFormed) (register : GsRegister) (value : UInt64) :
    (d.set register value).WellFormed := by
  cases register
  case status =>
    show (d.put .status _).get .status &&& ~~~0x2008 = 0x1B0000
    -- a write acknowledges event flags, and the revision has none of their bits
    have hflags : (0x1B0000 : UInt64) &&& (value &&& eventFlags) = 0 := by
      rw [UInt64.and_comm value, ← UInt64.and_assoc]
      exact UInt64.zero_and
    have hd : d.get .status &&& ~~~0x2008 = 0x1B0000 := hd
    rw [get_put, UInt64.and_assoc, UInt64.and_comm (~~~(value &&& eventFlags)), ← UInt64.and_assoc,
      hd, and_not_of_disjoint64 hflags]
  all_goals
    exact (congrArg (· &&& ~~~0x2008) (d.get_put_of_ne value (by decide))).trans hd

theorem wellFormed_writeDouble {d : Gs} (hd : d.WellFormed) (address : UInt32) (value : UInt64) :
    (d.writeDouble address value).device.WellFormed := by
  unfold writeDouble
  split
  · exact wellFormed_set hd _ value
  · exact hd

theorem device_readDouble (d : Gs) (address : UInt32) : (d.readDouble address).device = d := by
  unfold readDouble
  split <;> rfl

theorem keeps_wellFormed : Keeps WellFormed where
  readWord {d address} hd := (device_readWord d address).symm ▸ hd
  writeWord {d address value} hd := by
    show (d.writeWord address value).device.WellFormed
    unfold writeWord
    split
    · exact wellFormed_writeDouble hd _ _
    · exact wellFormed_writeDouble ((device_readDouble d _).symm ▸ hd) _ _
  readDouble {d address r} hd h := by
    cases h
    exact (device_readDouble d address).symm ▸ hd
  writeDouble {d address value r} hd h := by
    cases h
    exact wellFormed_writeDouble hd address value

end Gs

/-! ## The memory controller hub -/

namespace Rdram

/-- No more devices are reported than there are, and a command has no top bit. -/
structure WellFormed (d : Rdram) : Prop where
  reported : d.reported ≤ devices
  command : d.command < 0x80000000

theorem wellFormed_initial : initial.WellFormed := ⟨by decide, by decide⟩

theorem wellFormed_readWord {d : Rdram} (hd : d.WellFormed) (address : UInt32) :
    (d.readWord address).device.WellFormed := by
  unfold readWord
  split
  · exact hd
  · split
    · split
      · exact hd
      · split
        case h_1 =>
          split
          · rename_i hlt
            refine ⟨?_, hd.command⟩
            have hlt : d.reported.toNat < 2 := hlt
            show (d.reported + 1).toNat ≤ 2
            rw [UInt32.toNat_add, show (1 : UInt32).toNat = 1 from rfl]
            omega
          · exact hd
        all_goals exact hd
    · exact hd

theorem wellFormed_writeWord {d : Rdram} (hd : d.WellFormed) (address value : UInt32) :
    (d.writeWord address value).device.WellFormed := by
  unfold writeWord
  split
  · refine ⟨?_, ?_⟩
    · dsimp only
      split
      · decide
      · exact hd.reported
    · exact UInt32.lt_of_le_of_lt (field32_le value 0 31) (by decide)
  · split
    · exact ⟨hd.reported, hd.command⟩
    · exact hd

theorem keeps_wellFormed : Keeps WellFormed :=
  Peripheral.keeps_of_words (fun _ address hd => wellFormed_readWord hd address)
    (fun _ address value hd => wellFormed_writeWord hd address value) (fun _ _ => rfl)
    (fun _ _ _ => rfl)

end Rdram

/-! ## The DMA controller -/

namespace Dmac

/-- Of the status register only masks are ever set: nothing sets a flag. -/
def WellFormed (d : Dmac) : Prop := d.status &&& ~~~maskFlags = 0

theorem wellFormed_initial : initial.WellFormed := rfl

theorem wellFormed_set {d : Dmac} (hd : d.WellFormed) (register : DmaRegister) (value : UInt32) :
    (d.set register value).WellFormed := by
  cases register
  case status =>
    refine eq_of_testBit32 fun p => ?_
    have hbit : testBit32 (d.status &&& ~~~maskFlags) p = false :=
      (congrArg (testBit32 · p) hd).trans (testBit32_zero p)
    simp only [testBit32_and, testBit32_not] at hbit
    simp only [set, testBit32_and, testBit32_not, testBit32_xor, testBit32_zero]
    cases hmask : testBit32 maskFlags p <;> simp_all
  all_goals exact hd

theorem wellFormed_writeWord {d : Dmac} (hd : d.WellFormed) (address value : UInt32) :
    (d.writeWord address value).device.WellFormed := by
  unfold writeWord
  split
  · split <;> exact hd
  · split
    · exact wellFormed_set hd _ value
    · exact hd

theorem keeps_wellFormed : Keeps WellFormed :=
  Peripheral.keeps_of_words (fun d address hd => (device_readWord d address).symm ▸ hd)
    (fun _ address value hd => wellFormed_writeWord hd address value) (fun _ _ => rfl)
    (fun _ _ _ => rfl)

end Dmac

/-! ## The mailbox -/

namespace Sif

/-- The other side, which is not there, gives no command and sets no flag but the first. -/
structure WellFormed (d : Sif) : Prop where
  subCommand : d.subCommand = 0
  subFlag : d.subFlag &&& ~~~0x10000 = 0

theorem wellFormed_initial : initial.WellFormed := ⟨rfl, rfl⟩

theorem wellFormed_set {d : Sif} (hd : d.WellFormed) (register : SifRegister) (value : UInt32) :
    (d.set register value).WellFormed := by
  cases register
  case subFlag =>
    refine ⟨hd.subCommand, ?_⟩
    show d.subFlag &&& ~~~value &&& ~~~0x10000 = 0
    rw [UInt32.and_assoc, UInt32.and_comm (~~~value), ← UInt32.and_assoc, hd.subFlag,
      UInt32.zero_and]
  all_goals exact ⟨hd.subCommand, hd.subFlag⟩

theorem wellFormed_writeWord {d : Sif} (hd : d.WellFormed) (address value : UInt32) :
    (d.writeWord address value).device.WellFormed := by
  unfold writeWord
  split
  · exact wellFormed_set hd _ value
  · exact hd

theorem keeps_wellFormed : Keeps WellFormed :=
  Peripheral.keeps_of_words (fun d address hd => (device_readWord d address).symm ▸ hd)
    (fun _ address value hd => wellFormed_writeWord hd address value) (fun _ _ => rfl)
    (fun _ _ _ => rfl)

end Sif

/-! ## All devices -/

namespace Bank

/-- Every standard device is well formed. -/
structure WellFormed (b : Bank) : Prop where
  intc : b.intc.WellFormed
  timer : b.timer.WellFormed
  gs : b.gs.WellFormed
  rdram : b.rdram.WellFormed
  dmac : b.dmac.WellFormed
  sif : b.sif.WellFormed

theorem wellFormed_initial : initial.WellFormed where
  intc := Intc.wellFormed_initial
  timer := Timer.wellFormed_initial
  gs := Gs.wellFormed_initial
  rdram := Rdram.wellFormed_initial
  dmac := Dmac.wellFormed_initial
  sif := Sif.wellFormed_initial

/-- Reading any unit keeps the devices well formed. -/
theorem wellFormed_read {w : Width} {b : Bank} {unit : UnitId} {address : UInt32}
    {r : Reply Bank w.Value} (hb : b.WellFormed) (h : b.read w unit address = .ok r) :
    r.device.WellFormed := by
  cases unit <;> simp only [read] at h
  case attached i =>
    split at h
    · obtain ⟨r', -, hd⟩ := exists_of_answer_eq_ok h
      rw [hd]
      exact { hb with }
    · cases h
      exact hb
  all_goals
    obtain ⟨r', hr, hd⟩ := exists_of_answer_eq_ok h
    rw [hd]
  case intc => exact { hb with intc := Intc.keeps_wellFormed.read hb.intc hr }
  case timer => exact { hb with timer := Timer.keeps_wellFormed.read hb.timer hr }
  case gs => exact { hb with gs := Gs.keeps_wellFormed.read hb.gs hr }
  case rdram => exact { hb with rdram := Rdram.keeps_wellFormed.read hb.rdram hr }
  case dmac => exact { hb with dmac := Dmac.keeps_wellFormed.read hb.dmac hr }
  case sif => exact { hb with sif := Sif.keeps_wellFormed.read hb.sif hr }
  all_goals exact { hb with }

/-- Writing any unit keeps the devices well formed. -/
theorem wellFormed_write {w : Width} {b : Bank} {unit : UnitId} {address : UInt32}
    {value : w.Value} {r : Reply Bank Unit} (hb : b.WellFormed)
    (h : b.write w unit address value = .ok r) : r.device.WellFormed := by
  cases unit <;> simp only [write] at h
  case attached i =>
    split at h
    · obtain ⟨r', -, hd⟩ := exists_of_answer_eq_ok h
      rw [hd]
      exact { hb with }
    · cases h
      exact hb
  all_goals
    obtain ⟨r', hr, hd⟩ := exists_of_answer_eq_ok h
    rw [hd]
  case intc => exact { hb with intc := Intc.keeps_wellFormed.write hb.intc hr }
  case timer => exact { hb with timer := Timer.keeps_wellFormed.write hb.timer hr }
  case gs => exact { hb with gs := Gs.keeps_wellFormed.write hb.gs hr }
  case rdram => exact { hb with rdram := Rdram.keeps_wellFormed.write hb.rdram hr }
  case dmac => exact { hb with dmac := Dmac.keeps_wellFormed.write hb.dmac hr }
  case sif => exact { hb with sif := Sif.keeps_wellFormed.write hb.sif hr }
  all_goals exact { hb with }

end Bank

end R5900
