import R5900.Proofs.Bus.RegisterMap
import R5900.Proofs.Device.Registers

/-!
# Words that share a register

A device that answers at two words keeps them apart if a write to one never shows at the other
(`Peripheral.Unaffected`). The interrupt controller, the timers, the memory controller and the
mailbox keep all their words apart, up to the registers that are meant to act on another one, and
show zero wherever they have no register (`Peripheral.words_separated`).

The DMA controller and the graphics unit decode less of an address than their regions have. A
channel tells its registers apart by the low byte of an address alone, so every register shows again
in each 256 bytes of the channel's block, and the slot of 16 bytes of a graphics register shows its
doubleword twice (`UnitId.Mirrors`). Such words are one register. A quadword stored to a graphics
register is two doubleword writes to it, of which the second stays
(`Peripheral.mirrors_not_separated`).
-/

namespace R5900

namespace Peripheral

variable (δ : Type) [Peripheral δ]

/-- In every state of the device, no word written at `b` changes what the device shows at `a`. -/
def Unaffected (b a : UInt32) : Prop :=
  ∀ (d : δ) (word : UInt32), shown (writeWord d b word).device a = shown d a

/-- The device has no register at the address: it shows zero there, and accesses leave it alone. -/
structure NoRegister (a : UInt32) : Prop where
  shown : ∀ d : δ, shown d a = 0
  read : ∀ d : δ, (readWord d a).device = d
  write : ∀ (d : δ) (word : UInt32), (writeWord d a word).device = d

/-- Two words of the device are one register. -/
structure SameRegister (a b : UInt32) : Prop where
  shown : ∀ d : δ, shown d a = shown d b
  write : ∀ (d : δ) (word : UInt32), (writeWord d a word).device = (writeWord d b word).device

end Peripheral

/-! ## The words of the map -/

namespace UnitId

/-- The standard map has the unit at the address. -/
def MappedAt (unit : UnitId) (a : UInt32) : Prop :=
  ∃ region, (region, unit) ∈ standardMap ∧ region.contains a = true

/-- The unit decodes the two words as one: in the block of a channel the low byte of an address
decides, and in the slot of a graphics register both halves are the register. -/
def Mirrors (unit : UnitId) (a b : UInt32) : Prop :=
  match unit with
  | .dmac => (∃ channel, DmaChannel.ofAddress? a = some channel ∧
      DmaChannel.ofAddress? b = some channel) ∧ a &&& 0xFF = b &&& 0xFF
  | .gs => a.toNat / 16 = b.toNat / 16 ∧ a.toNat % 8 = b.toNat % 8
  | _ => False

/-- A write at `b` is meant to decide what the unit shows at `a`: the enable register is written at
one address and read at another, and a command of the memory controller selects its answer. -/
def Drives (unit : UnitId) (b a : UInt32) : Prop :=
  match unit with
  | .dmac => b = Dmac.enableAddress ∧ a = Dmac.enabledAddress
  | .rdram => b = Rdram.commandAddress ∧ a = Rdram.dataAddress
  | _ => False

end UnitId

open UnitId (MappedAt)

namespace Peripheral

/-- A unit has no register at an address if its tables have none, and keeps it apart from a second
one unless it decodes them as one. -/
structure SeparatesWords (δ : Type) [Peripheral δ] (unit : UnitId) (a b : UInt32) : Prop where
  absent : unit.MappedAt a → ¬unit.Implements a → NoRegister δ a
  mirrored : unit.Mirrors a b → SameRegister δ a b
  separate : 4 ∣ a.toNat → 4 ∣ b.toNat → unit.MappedAt a → unit.MappedAt b → a ≠ b →
    ¬unit.Mirrors a b → ¬unit.Drives b a → Unaffected δ b a

/-- A device keeps words apart if its unit decodes them into different registers and writes to one
register do not show in another one. -/
theorem Decodes.separatesWords {δ ρ : Type} [Peripheral δ] {register? : UInt32 → Option ρ}
    {get : δ → ρ → UInt32} {set : δ → ρ → UInt32 → δ} (h : Decodes register? get set)
    {unit : UnitId} {a b : UInt32}
    (habsent : unit.MappedAt a → ¬unit.Implements a → register? a = none)
    (hmirrored : unit.Mirrors a b → register? a = register? b)
    (hseparate : ∀ {r s : ρ}, 4 ∣ a.toNat → 4 ∣ b.toNat → unit.MappedAt a → unit.MappedAt b →
      a ≠ b → ¬unit.Mirrors a b → ¬unit.Drives b a → register? a = some r → register? b = some s →
      ∀ d word, get (set d s word) r = get d r) :
    SeparatesWords δ unit a b where
  absent hmapped himplements := by
    have hnone := habsent hmapped himplements
    refine ⟨fun d => ?_, fun d => h.read d a, fun d word => ?_⟩
    · rw [h.shown, hnone, Option.elim_none]
    · rw [h.write, hnone, Option.elim_none]
  mirrored hmirrors := by
    have hsame := hmirrored hmirrors
    refine ⟨fun d => ?_, fun d word => ?_⟩
    · rw [h.shown, h.shown, hsame]
    · rw [h.write, h.write, hsame]
  separate ha hb hamapped hbmapped hne hmirrors hdrives d word := by
    rw [h.shown, h.shown, h.write]
    cases hr : register? a with
    | none => rfl
    | some r =>
      cases hs : register? b with
      | none => rfl
      | some s => exact hseparate ha hb hamapped hbmapped hne hmirrors hdrives hr hs d word

end Peripheral

open Peripheral

variable {a b : UInt32}

/-! ## The interrupt controller and the memory controller

These compare the whole address. -/

theorem Intc.separatesWords : SeparatesWords Intc .intc a b where
  absent _ h := by
    obtain ⟨hstatus, hmask⟩ := not_or.1 h
    refine ⟨fun d => ?_, fun d => device_readWord d a, fun d word => ?_⟩
    · show (d.readWord a).value = 0
      rw [readWord, if_neg hstatus, if_neg hmask]
    · show (d.writeWord a word).device = d
      rw [writeWord, if_neg hstatus, if_neg hmask]
  mirrored h := h.elim
  separate _ _ _ _ hne _ _ d word := by
    show ((d.writeWord b word).device.readWord a).value = (d.readWord a).value
    unfold writeWord
    split
    case isTrue hstatus =>
      have ha : a ≠ statusAddress := fun ha => hne (ha.trans hstatus.symm)
      rw [readWord, readWord, if_neg ha, if_neg ha]
      split <;> rfl
    case isFalse =>
      split
      case isTrue hmask =>
        have ha : a ≠ maskAddress := fun ha => hne (ha.trans hmask.symm)
        rw [readWord, readWord, if_neg ha, if_neg ha]
        split <;> rfl
      case isFalse => rfl

theorem Rdram.separatesWords : SeparatesWords Rdram .rdram a b where
  absent _ h := by
    obtain ⟨hcommand, hdata⟩ := not_or.1 h
    refine ⟨fun d => ?_, fun d => ?_, fun d word => ?_⟩
    · show (d.readWord a).value = 0
      rw [readWord, if_neg hcommand, if_neg hdata]
    · show (d.readWord a).device = d
      rw [readWord, if_neg hcommand, if_neg hdata]
    · show (d.writeWord a word).device = d
      rw [writeWord, if_neg hcommand, if_neg hdata]
  mirrored h := h.elim
  separate _ _ _ _ hne _ hdrives d word := by
    show ((d.writeWord b word).device.readWord a).value = (d.readWord a).value
    by_cases hdata : a = dataAddress
    · -- what the answer depends on is changed at the command register only
      have hcommand : b ≠ commandAddress := fun hb => hdrives ⟨hb, hdata⟩
      have hb : b ≠ dataAddress := fun hb => hne (hdata.trans hb.symm)
      rw [writeWord, if_neg hcommand, if_neg hb]
    · have hzero : ∀ d : Rdram, (d.readWord a).value = 0 := by
        intro d
        rw [readWord, if_neg hdata]
        split <;> rfl
      rw [hzero, hzero]

/-! ## The mailbox -/

namespace Sif

theorem bounds_of_mappedAt (h : MappedAt .sif a) :
    0x1000F200 ≤ a.toNat ∧ a.toNat < 0x1000F260 := by
  obtain ⟨region, hmem, hcontains⟩ := h
  have hregion : region = .range 0x1000F200 0x1000F260 := by
    simpa [standardMap] using hmem
  exact (window_iff a _ _).1 (hregion ▸ hcontains)

/-- The table of a unit lists the registers by their distance from the first, the device by the low
byte of their address. -/
theorem implements_of_ofAddress? (hmapped : MappedAt .sif a) {register : SifRegister}
    (h : SifRegister.ofAddress? a = some register) : UnitId.sif.Implements a := by
  obtain ⟨hle, hlt⟩ := bounds_of_mappedAt hmapped
  have hsub : (a - base).toNat = a.toNat - 0x1000F200 :=
    UInt32.toNat_sub_of_le a base (UInt32.le_iff_toNat_le.2 hle)
  have hlow : (a - base) &&& 0xFF = a &&& 0xFF := by
    rw [← UInt32.toNat_inj, toNat_and_mask _ 0xFF 8 rfl, toNat_and_mask _ 0xFF 8 rfl]
    omega
  refine ⟨a - base, register, ?_, ?_, ?_⟩
  · rw [UInt32.lt_iff_toNat_lt]
    show (a - base).toNat < 0x100
    omega
  · rw [UInt32.add_comm, UInt32.sub_add_cancel]
  · rw [← h, SifRegister.ofAddress?, hlow]
    rfl

theorem separatesWords : SeparatesWords Sif .sif a b := by
  refine decodes.separatesWords (fun hmapped h => ?_) (fun h => h.elim) ?_
  · exact Option.eq_none_iff_forall_ne_some.2 fun register hregister =>
      h (implements_of_ofAddress? hmapped hregister)
  · intro register register' _ _ ha hb hne _ _ hregister hregister' d word
    refine d.get_set_of_ne word fun heq => hne ?_
    -- the region is shorter than 256 bytes, so the low byte tells its addresses apart
    have hlow : a &&& 0xFF = b &&& 0xFF :=
      (SifRegister.and_of_ofAddress? hregister).trans
        ((SifRegister.and_of_ofAddress? hregister').trans (congrArg _ heq)).symm
    have hlow := congrArg UInt32.toNat hlow
    rw [toNat_and_mask a 0xFF 8 rfl, toNat_and_mask b 0xFF 8 rfl] at hlow
    have ha := bounds_of_mappedAt ha
    have hb := bounds_of_mappedAt hb
    exact UInt32.toNat_inj.1 (by omega)

end Sif

/-! ## The timers -/

namespace Timer

theorem separatesWords : SeparatesWords Timer .timer a b := by
  refine decodes.separatesWords (fun _ h => ?_) (fun h => h.elim) ?_
  · refine Option.eq_none_iff_forall_ne_some.2 fun r hr => h ?_
    obtain ⟨hindex, hoffset, hregister⟩ := register?_eq_some_iff.1 hr
    rw [← hoffset] at hregister
    exact ⟨r.1, hindex, hregister⟩
  · intro r s _ _ _ _ hne _ _ hr hs t word
    refine t.held_written word fun heq => hne ?_
    subst heq
    exact eq_of_register? hr hs

end Timer

/-! ## The DMA controller -/

namespace Dmac

/-- Words of one register are the same or mirror each other. -/
theorem eq_or_mirrors {r : DmaChannel × Fin 7 ⊕ DmaRegister}
    (ha : register? a = some r) (hb : register? b = some r) :
    a = b ∨ UnitId.dmac.Mirrors a b := by
  match r with
  | .inl (channel, i) =>
    obtain ⟨hchannel, hi⟩ := channel_of_register? ha
    obtain ⟨hchannel', hi'⟩ := channel_of_register? hb
    exact .inr ⟨⟨channel, hchannel, hchannel'⟩,
      (DmaChannel.and_of_register? hi).trans (DmaChannel.and_of_register? hi').symm⟩
  | .inr register =>
    exact .inl ((eq_address_of_register? ha).trans (eq_address_of_register? hb).symm)

theorem separatesWords : SeparatesWords Dmac .dmac a b := by
  refine decodes.separatesWords (fun _ h => ?_) (fun h => ?_) ?_
  · simp only [UnitId.Implements] at h
    unfold register?
    cases hchannel : DmaChannel.ofAddress? a with
    | some channel =>
      rw [hchannel] at h
      exact Option.map_eq_none_iff.2 (Option.eq_none_iff_forall_ne_some.2 (not_exists.1 h))
    | none =>
      rw [hchannel] at h
      exact Option.map_eq_none_iff.2 (Option.eq_none_iff_forall_ne_some.2 (not_exists.1 h))
  · obtain ⟨⟨channel, ha, hb⟩, hlow⟩ := h
    have hregister : DmaChannel.register? a = DmaChannel.register? b := by
      rw [DmaChannel.register?, hlow]
      rfl
    rw [register?, register?, ha, hb, hregister]
  · intro r s _ _ _ _ hne hmirrors hdrives hr hs d word
    refine d.held_written word (fun heq => ?_) fun henable => hdrives ?_
    · subst heq
      exact (eq_or_mirrors hr hs).elim hne hmirrors
    · obtain ⟨rfl, rfl⟩ := henable
      exact ⟨eq_address_of_register? hs, eq_address_of_register? hr⟩

end Dmac

/-! ## The graphics unit -/

namespace Gs

theorem register?_eq_of_mirrors (h : UnitId.gs.Mirrors a b) :
    register? a = register? b := by
  obtain ⟨hslot, hlow⟩ := h
  have hseven : a &&& 7 = b &&& 7 := by
    rw [← UInt32.toNat_inj, toNat_and_mask a 7 3 rfl, toNat_and_mask b 7 3 rfl]
    exact hlow
  have hfour : a &&& 4 = b &&& 4 := by
    rw [show (4 : UInt32) = 7 &&& 4 from rfl, ← UInt32.and_assoc, ← UInt32.and_assoc, hseven]
  rw [register?, register?, ofAddress?_doubleAddress, ofAddress?_doubleAddress,
    GsRegister.ofAddress?_congr hslot, wordLane, wordLane, hfour]

/-- Words of one half of a register lie in one slot and at the same place in their doubleword. -/
theorem mirrors_of_register? {r : GsRegister × UInt64} (ha : 4 ∣ a.toNat)
    (hb : 4 ∣ b.toNat) (hr : register? a = some r) (hs : register? b = some r) :
    UnitId.gs.Mirrors a b := by
  have hplace : ∀ {a : UInt32}, 4 ∣ a.toNat → (wordLane a).toNat = 8 * (a.toNat % 8) := by
    intro a ha
    obtain ⟨base, k, hk, -, -, hbase, hsum, hlane⟩ := exists_half ha
    omega
  obtain ⟨register, hregister, rfl⟩ := Option.map_eq_some_iff.1 hr
  obtain ⟨register', hregister', heq⟩ := Option.map_eq_some_iff.1 hs
  obtain ⟨rfl, hlane⟩ := Prod.mk.inj heq
  rw [ofAddress?_doubleAddress] at hregister hregister'
  have hlane := congrArg UInt64.toNat hlane
  rw [hplace ha, hplace hb] at hlane
  exact ⟨(GsRegister.slot_eq_of_ofAddress? hregister hregister').symm, by omega⟩

theorem separatesWords : SeparatesWords Gs .gs a b := by
  refine decodes.separatesWords (fun _ h => ?_) register?_eq_of_mirrors ?_
  · rw [register?, ofAddress?_doubleAddress]
    exact Option.map_eq_none_iff.2 (Option.eq_none_iff_forall_ne_some.2 (not_exists.1 h))
  · intro r s ha hb _ _ _ hmirrors _ hr hs d word
    have hlane : ∀ {a : UInt32} {r : GsRegister × UInt64}, register? a = some r →
        r.2.toNat = 0 ∨ r.2.toNat = 32 := by
      intro a r h
      obtain ⟨register, -, rfl⟩ := Option.map_eq_some_iff.1 h
      exact toNat_wordLane a
    refine d.held_written word (hlane hr) (hlane hs) fun heq => hmirrors ?_
    subst heq
    exact mirrors_of_register? ha hb hr hs

end Gs

/-! ## All devices -/

namespace Peripheral

/-- **A device keeps the words apart that it does not decode as one.** For any two addresses and in
every state, every unit with registers shows zero and ignores accesses at the first if it is mapped
there and its tables have no register, and a write at the second does not show at the first if both
are mapped words, unless the two are one register or the register written is meant to drive the
other one. Only the DMA controller and the graphics unit decode different words as one, and then
they are one register in every state. -/
theorem words_separated (a b : UInt32) :
    SeparatesWords Intc .intc a b ∧ SeparatesWords Rdram .rdram a b ∧
      SeparatesWords Dmac .dmac a b ∧ SeparatesWords Sif .sif a b ∧
      SeparatesWords Timer .timer a b ∧ SeparatesWords Gs .gs a b :=
  ⟨Intc.separatesWords, Rdram.separatesWords, Dmac.separatesWords, Sif.separatesWords,
    Timer.separatesWords, Gs.separatesWords⟩

/-- The control register and the address register of a channel, in the block of one channel. -/
theorem words_separated_channel :
    (UnitId.dmac.MappedAt 0x10008000 ∧ UnitId.dmac.MappedAt 0x10008010 ∧
        ¬UnitId.dmac.Mirrors 0x10008000 0x10008010 ∧ ¬UnitId.dmac.Drives 0x10008010 0x10008000) ∧
      Unaffected Dmac 0x10008010 0x10008000 := by
  have hcontrol : UnitId.dmac.MappedAt 0x10008000 :=
    ⟨.range 0x10008000 0x1000F000, by decide, by decide⟩
  have haddress : UnitId.dmac.MappedAt 0x10008010 :=
    ⟨.range 0x10008000 0x1000F000, by decide, by decide⟩
  have hmirrors : ¬UnitId.dmac.Mirrors 0x10008000 0x10008010 := fun h => absurd h.2 (by decide)
  have hdrives : ¬UnitId.dmac.Drives 0x10008010 0x10008000 := fun h => absurd h.1 (by decide)
  obtain ⟨-, -, hdmac, -⟩ := words_separated 0x10008000 0x10008010
  exact ⟨⟨hcontrol, haddress, hmirrors, hdrives⟩, hdmac.separate (by decide) (by decide) hcontrol
    haddress (by decide) hmirrors hdrives⟩

/-- Different mapped words can be one register: a write 256 bytes past the control register of a
channel shows there, a write to the upper half of the slot of a graphics register shows in the
register, and of a quadword stored in the slot the register keeps the upper doubleword. -/
theorem mirrors_not_separated :
    (UnitId.dmac.MappedAt 0x10008100 ∧ UnitId.dmac.MappedAt 0x10008000 ∧
        ¬UnitId.dmac.Drives 0x10008100 0x10008000 ∧ ¬Unaffected Dmac 0x10008100 0x10008000) ∧
      (UnitId.gs.MappedAt 0x12000088 ∧ UnitId.gs.MappedAt 0x12000080 ∧
        ¬UnitId.gs.Drives 0x12000088 0x12000080 ∧ ¬Unaffected Gs 0x12000088 0x12000080) ∧
      ∀ (d : Gs) (value : Quad), ∃ r, Peripheral.write .quad d 0x12000080 value = .ok r ∧
        r.device.get .display1 = value.hi := by
  refine ⟨⟨?_, ?_, ?_, fun h => ?_⟩, ⟨?_, ?_, fun h => h, fun h => ?_⟩, fun d value => ?_⟩
  · exact ⟨.range 0x10008000 0x1000F000, by decide, by decide⟩
  · exact ⟨.range 0x10008000 0x1000F000, by decide, by decide⟩
  · exact fun h => absurd h.1 (by decide)
  · exact absurd (h Dmac.initial 0x185) (by decide)
  · exact ⟨.range 0x12000000 0x12002000, by decide, by decide⟩
  · exact ⟨.range 0x12000000 0x12002000, by decide, by decide⟩
  · exact absurd (h Gs.initial 1) (by decide)
  · exact ⟨_, rfl, Gs.get_put ..⟩

end Peripheral

end R5900
