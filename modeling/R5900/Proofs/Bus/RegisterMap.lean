import R5900.Proofs.Bus.StandardMap
import R5900.Proofs.Device.Registers

/-!
# The registers on the map

A device says by tables of its own which registers it has (`UnitId.Implements`), and the standard map
says where it answers. The two agree: over the bus every access that meets the word of a register
reaches its device and nothing else (`Bus.reaches_of_implements`).

One register is left out. The region of the mailbox ends where its last register begins, so nobody
answers there (`Bus.unanswered_lastRegister`).
-/

namespace R5900

/-! ## The tables of the devices -/

/-- The address of the mailbox's first register; the others follow within 256 bytes. -/
def Sif.base : UInt32 := 0x1000F200

/-- The address of the mailbox's last register. -/
def Sif.lastAddress : UInt32 := 0x1000F260

/-- The tables of a unit have a register at a word address. The units that only hold what software
writes have no tables. -/
def UnitId.Implements (unit : UnitId) (a : UInt32) : Prop :=
  match unit with
  | .intc => a = Intc.statusAddress ∨ a = Intc.maskAddress
  | .rdram => a = Rdram.commandAddress ∨ a = Rdram.dataAddress
  | .dmac =>
    match DmaChannel.ofAddress? a with
    | some _ => ∃ register, DmaChannel.register? a = some register
    | none => ∃ register, DmaRegister.ofAddress? a = some register
  | .timer => ∃ i, Timer.index? a = some i ∧
      (Timer.offset a = 0 ∨ Timer.offset a = 0x10 ∨ Timer.offset a = 0x20 ∨
        Timer.offset a = 0x30 ∧ i.val < 2)
  | .gs => ∃ register, GsRegister.ofAddress? a = some register
  | .sif => ∃ offset register, offset < 0x100 ∧ a = Sif.base + offset ∧
      SifRegister.ofAddress? offset = some register
  | .vif => False
  | .ipu => False
  | .attached _ => False

/-! ## From tables to regions -/

/-- An address from the first of a range up to the last lies in the region. -/
theorem Region.contains_range {start stop a : UInt32} (hle : start.toNat ≤ a.toNat)
    (hlt : a.toNat < stop.toNat) : (Region.range start stop).contains a = true :=
  (window_iff a start stop).2 ⟨hle, hlt⟩

theorem DmaChannel.bounds_of_ofAddress? {a : UInt32} {channel : DmaChannel}
    (h : ofAddress? a = some channel) : 0x10008000 ≤ a.toNat ∧ a.toNat < 0x1000E000 := by
  refine ⟨Nat.le_of_not_lt fun hlt => ?_, Nat.lt_of_not_le fun hle => ?_⟩
  · have hlow : a < 0x10008000 := hlt
    rw [ofAddress?, if_pos hlow] at h
    cases h
  · have hnot : ∀ n : UInt32, n.toNat ≤ 0x1000E000 → ¬a < n := fun n hn hlt =>
      Nat.not_le_of_lt (UInt32.lt_iff_toNat_lt.1 hlt) (Nat.le_trans hn hle)
    simp (disch := decide) only [ofAddress?, if_neg (hnot _ _)] at h
    cases h

theorem DmaRegister.exists_region {a : UInt32} {register : DmaRegister}
    (h : ofAddress? a = some register) :
    ∃ region, (region, UnitId.dmac) ∈ standardMap ∧ region.contains a = true := by
  unfold ofAddress? at h
  split at h
  case h_8 => exact ⟨.slot Dmac.enabledAddress, by decide, by decide⟩
  case h_9 => exact ⟨.slot Dmac.enableAddress, by decide, by decide⟩
  case h_10 => cases h
  all_goals exact ⟨.range 0x10008000 0x1000F000, by decide, by decide⟩

theorem SifRegister.offset_of_ofAddress? {offset : UInt32} {register : SifRegister}
    (hoffset : offset < 0x100) (h : ofAddress? offset = some register)
    (hne : offset ≠ 0x60) : offset.toNat < 0x60 := by
  have hlow : offset &&& 0xFF = offset := by
    rw [← UInt32.toNat_inj, toNat_and_mask offset 0xFF 8 rfl]
    exact Nat.mod_eq_of_lt hoffset
  rw [ofAddress?, hlow] at h
  split at h
  case h_6 => exact absurd rfl hne
  case h_7 => cases h
  all_goals decide

/-- Every register but the last of the mailbox lies in a region of its unit. -/
theorem UnitId.exists_region {unit : UnitId} {a : UInt32} (h : unit.Implements a)
    (hne : a ≠ Sif.lastAddress) :
    ∃ region, (region, unit) ∈ standardMap ∧ region.contains a = true := by
  cases unit with
  | intc =>
    rcases h with rfl | rfl
    · exact ⟨.slot Intc.statusAddress, by decide, by decide⟩
    · exact ⟨.slot Intc.maskAddress, by decide, by decide⟩
  | rdram =>
    rcases h with rfl | rfl
    · exact ⟨.slot Rdram.commandAddress, by decide, by decide⟩
    · exact ⟨.slot Rdram.dataAddress, by decide, by decide⟩
  | dmac =>
    simp only [Implements] at h
    cases hchannel : DmaChannel.ofAddress? a with
    | some channel =>
      obtain ⟨hle, hlt⟩ := DmaChannel.bounds_of_ofAddress? hchannel
      refine ⟨.range 0x10008000 0x1000F000, by decide, Region.contains_range hle ?_⟩
      exact Nat.lt_trans hlt (by decide)
    | none =>
      rw [hchannel] at h
      obtain ⟨register, hregister⟩ := h
      exact DmaRegister.exists_region hregister
  | timer =>
    obtain ⟨i, hi, -⟩ := h
    obtain ⟨hle, hlt⟩ := Timer.bounds_of_index? hi
    exact ⟨.range 0x10000000 0x10002000, by decide, Region.contains_range hle hlt⟩
  | gs =>
    obtain ⟨register, hregister⟩ := h
    obtain ⟨hle, hlt⟩ := GsRegister.bounds_of_ofAddress? hregister
    exact ⟨.range 0x12000000 0x12002000, by decide, Region.contains_range hle hlt⟩
  | sif =>
    obtain ⟨offset, register, hoffset, rfl, hregister⟩ := h
    have hoffset := SifRegister.offset_of_ofAddress? hoffset hregister (by
      rintro rfl
      exact hne rfl)
    have hsum : (Sif.base + offset).toNat = 0x1000F200 + offset.toNat := by
      rw [UInt32.toNat_add]
      exact Nat.mod_eq_of_lt (show 0x1000F200 + offset.toNat < 2 ^ 32 by omega)
    refine ⟨.range 0x1000F200 0x1000F260, by decide, Region.contains_range ?_ ?_⟩
    · rw [hsum]
      exact Nat.le_add_right ..
    · rw [hsum]
      exact Nat.add_lt_add_left hoffset 0x1000F200
  | vif => exact h.elim
  | ipu => exact h.elim
  | attached index => exact h.elim

/-! ## Reaching registers -/

namespace Bus

/-- An access of a width at an address reaches a unit: no memory and no other entry of the map claims
the address, and both directions are answered by the unit. -/
structure Reaches (b : Bus) (w : Width) (address : UInt32) (unit : UnitId) : Prop where
  route : b.route address = .device unit
  claimed : ∃ region, b.map.filter (fun entry => entry.1.contains address) = [(region, unit)]
  read : ∃ r, b.devices.read w unit address = .ok r ∧ b.tryRead w address = .ok (.answered
    ⟨r.value, { b with devices := r.device }, r.notes ++ [deviceReadNote address]⟩)
  write : ∀ value, ∃ r, b.devices.write w unit address value = .ok r ∧
    b.tryWrite w address value = .ok (.answered
      ⟨(), { b with devices := r.device }, deviceWriteNote address :: r.notes⟩)

/-- Nobody answers an access of a width at an address. -/
structure Unanswered (b : Bus) (w : Width) (address : UInt32) : Prop where
  unclaimed : b.map.filter (fun entry => entry.1.contains address) = []
  read : b.tryRead w address = .ok (.unmapped address b)
  write : ∀ value, b.tryWrite w address value = .ok (.unmapped address b)

variable {b : Bus} (hmap : b.map = standardMap)
include hmap

theorem reaches_of_mem {region : Region} {unit : UnitId} (h : (region, unit) ∈ standardMap)
    {address : UInt32} (hcontains : region.contains address = true) (w : Width) :
    b.Reaches w address unit := by
  have hroute : b.route address = .device unit := route_of_mem hmap h hcontains
  obtain ⟨-, -, -, hstop⟩ := standardMap_inDeviceSpace h
  obtain ⟨-, hlt⟩ := (contains_standardMap_iff h).1 hcontains
  have hlast : address.toNat + 12 < 2 ^ 32 := by omega
  refine ⟨hroute, ⟨region, ?_⟩, ?_, fun value => ?_⟩
  · rw [hmap]
    exact filter_standardMap h hcontains
  · obtain ⟨r, hr⟩ := b.devices.read_eq_ok w unit hlast
    exact ⟨r, hr, tryRead_of_route hroute hr⟩
  · obtain ⟨r, hr⟩ := b.devices.write_eq_ok w unit value hlast
    exact ⟨r, hr, tryWrite_of_route hroute hr⟩

theorem unanswered_of_unclaimed {address : UInt32} (hlow : 0x10000000 ≤ address.toNat)
    (hhigh : address.toNat < 0x1C000000)
    (h : standardMap.filter (fun entry => entry.1.contains address) = []) (w : Width) :
    b.Unanswered w address := by
  have hroute : b.route address = .unmapped := by
    rw [b.route_of_device_space hlow hhigh, unitAt?, hmap, ← List.head?_filter, h]
    rfl
  exact ⟨hmap ▸ h, tryRead_of_unmapped hroute, fun value => tryWrite_of_unmapped value hroute⟩

/-- **Every implemented register but one is reachable.** On a bus with the standard map, take a word
at which a device has a register, and any aligned access that lies in the word or contains it. The
access reaches the device, and nothing else claims its address; only at the last register of the
mailbox nobody answers. -/
theorem reaches_of_implements {unit : UnitId} {a : UInt32} (ha : 4 ∣ a.toNat)
    (h : unit.Implements a) {w : Width} {address : UInt32} (haddress : w.bytes ∣ address.toNat)
    (hmeets : MeetsWord w address a) :
    if a = Sif.lastAddress then b.Unanswered w address else b.Reaches w address unit := by
  have hslot := slot_eq_of_overlap haddress ha hmeets.overlap
  split
  · rename_i hlast
    have hlast : address.toNat / 16 = 0x1000F26 := hslot.trans (congrArg (·.toNat / 16) hlast)
    refine unanswered_of_unclaimed hmap (by omega) (by omega) ?_ w
    refine List.filter_eq_nil_iff.2 fun entry hentry hcontains => ?_
    -- the regions are made of slots, and none has the one of the last register
    have hnone : ∀ entry ∈ standardMap,
        ¬(entry.1.first ≤ 0x1000F260 ∧ 0x1000F260 < entry.1.stop) := by decide
    obtain ⟨hfirst, hstop, -, -⟩ := standardMap_inDeviceSpace hentry
    have hbounds := (contains_standardMap_iff hentry).1 hcontains
    exact hnone entry hentry (by omega)
  · rename_i hne
    obtain ⟨region, hmem, hcontains⟩ := UnitId.exists_region h hne
    exact reaches_of_mem hmap hmem (contains_of_slot_eq hmem hslot hcontains) w

omit hmap

/-- The law for a doubleword at the interrupt mask on the bus of the standard machine. -/
theorem reaches_of_implements_mask :
    let b := (Simulation.initial .standard none).machine.bus
    b.map = standardMap ∧ 4 ∣ Intc.maskAddress.toNat ∧ UnitId.intc.Implements Intc.maskAddress ∧
      Width.double.bytes ∣ Intc.maskAddress.toNat ∧
      MeetsWord .double Intc.maskAddress Intc.maskAddress ∧
      if Intc.maskAddress = Sif.lastAddress then b.Unanswered .double Intc.maskAddress
      else b.Reaches .double Intc.maskAddress .intc := by
  intro b
  have hmeets : MeetsWord .double Intc.maskAddress Intc.maskAddress := .inr (by decide)
  have himplements : UnitId.intc.Implements Intc.maskAddress := Or.inr rfl
  exact ⟨rfl, by decide, himplements, by decide, hmeets,
    reaches_of_implements (b := b) rfl (by decide) himplements (by decide) hmeets⟩

/-- The mailbox keeps what is written to its last register, but on the bus of the standard machine
the register cannot be reached. -/
theorem unanswered_lastRegister :
    let b := (Simulation.initial .standard none).machine.bus
    UnitId.sif.Implements Sif.lastAddress ∧
      (∀ value, ((b.devices.sif.writeWord Sif.lastAddress value).device.readWord
        Sif.lastAddress).value = value) ∧
      b.tryRead .word Sif.lastAddress = .ok (.unmapped Sif.lastAddress b) ∧
      ∀ value, b.tryWrite .word Sif.lastAddress value = .ok (.unmapped Sif.lastAddress b) := by
  intro b
  have hroute : b.route Sif.lastAddress = .unmapped := by decide +kernel
  have himplements : UnitId.sif.Implements Sif.lastAddress :=
    ⟨0x60, .bd6, by decide, by decide, by decide⟩
  exact ⟨himplements, fun value => rfl, tryRead_of_unmapped hroute,
    fun value => tryWrite_of_unmapped value hroute⟩

end Bus

end R5900
