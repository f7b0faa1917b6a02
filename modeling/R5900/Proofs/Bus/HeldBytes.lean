import R5900.Proofs.Bus.Operation
import R5900.Proofs.Device.HeldBytes

/-!
# The bytes behind the bus

The vector interfaces, the image processor and most registers of the graphics unit only hold what
software writes. Over the bus they are one flat array of bytes (`Bus.heldBytes`): in any sequence of
aligned accesses of all widths to them, every access is a load or a store of that array
(`Bus.performAll_eq_flat`).

A `Bus.Window` collects what the proof needs of each of the three devices.
-/

namespace R5900

/-! ## Accesses and the flat array -/

/-- What an access gives and leaves in a flat array of bytes. -/
def BusOperation.onBytes (f : ByteMap) : BusOperation → Option Nat × ByteMap
  | read w a => (some (f.load a w.bytes), f)
  | write w a value => (none, f.store a w.bytes (w.number value))

/-- What accesses in order give and leave in a flat array of bytes. -/
def ByteMap.performAll (f : ByteMap) : List BusOperation → List (Option Nat) × ByteMap
  | [] => ([], f)
  | operation :: operations =>
    let (answer, f) := operation.onBytes f
    let (answers, f) := f.performAll operations
    (answer :: answers, f)

namespace Bus

/-- What accesses in order give, and the bus afterwards. -/
def performAll (b : Bus) : List BusOperation → Except Fault (List (Option Nat) × Bus)
  | [] => .ok ([], b)
  | operation :: operations => do
    let (answer, b) ← operation.perform b
    let (answers, b) ← b.performAll operations
    return (answer :: answers, b)

/-- The address lies in the window of the vector interfaces. -/
def InVif (a : UInt32) : Prop := 0x10003800 ≤ a.toNat ∧ a.toNat < 0x10004000

/-- The address lies in the window of the image processor. -/
def InIpu (a : UInt32) : Prop := 0x10002000 ≤ a.toNat ∧ a.toNat < 0x10003000

instance (a : UInt32) : Decidable (InVif a) := inferInstanceAs (Decidable (_ ∧ _))
instance (a : UInt32) : Decidable (InIpu a) := inferInstanceAs (Decidable (_ ∧ _))

/-- The bytes that the vector interfaces, the image processor and the graphics unit hold. -/
def heldBytes (b : Bus) : ByteMap := fun a =>
  if InVif a then b.devices.vif.bytes a
  else if InIpu a then b.devices.ipu.bytes a
  else b.devices.gs.bytes a

/-- The bus `b'` is the bus `b` but for the devices that hold bytes. -/
def SameButHeld (b b' : Bus) : Prop :=
  b' = { b with devices := { b.devices with
    vif := b'.devices.vif, ipu := b'.devices.ipu, gs := b'.devices.gs } }

end Bus

/-- An aligned access to the windows of the vector interfaces and of the image processor, or to the
first half of the slot of a register of the graphics unit other than the status. -/
def Width.InHeld (w : Width) (a : UInt32) : Prop :=
  w.bytes ∣ a.toNat ∧
    (0x10003800 ≤ a.toNat ∧ a.toNat + w.bytes ≤ 0x10004000 ∨
      0x10002000 ≤ a.toNat ∧ a.toNat + w.bytes ≤ 0x10003000 ∨
      a.toNat % 16 + w.bytes ≤ 8 ∧
        ∃ register, register ≠ .status ∧ GsRegister.ofAddress? a = some register)

/-- An access whose bytes are all held. -/
def BusOperation.InHeld : BusOperation → Prop
  | read w a => w.InHeld a
  | write w a _ => w.InHeld a

namespace Bus

/-! ## Windows -/

/-- The device of a part holds the bytes at the addresses of `dom`, where the bus leads to it, and no
other device has a share in the bytes of `share`. -/
structure Window {δ : Type} [Peripheral δ] (P : Bank.Part δ) (dom share : UInt32 → Prop)
    (bytes : δ → ByteMap) : Prop where
  holds : Peripheral.HoldsBytes dom bytes
  route : ∀ {b : Bus} {a : UInt32}, b.map = standardMap → dom a → b.route a = .device P.unit
  share_of_dom : ∀ {a : UInt32}, dom a → share a
  heldBytes_of_share : ∀ (b : Bus) (d : δ) {a : UInt32}, share a →
    heldBytes { b with devices := P.put b.devices d } a = bytes d a
  heldBytes_of_not_share : ∀ (b : Bus) (d : δ) {a : UInt32}, ¬share a →
    heldBytes { b with devices := P.put b.devices d } a = b.heldBytes a
  same : ∀ (b : Bus) (d : δ), b.SameButHeld { b with devices := P.put b.devices d }

namespace Window

variable {δ : Type} [Peripheral δ] {P : Bank.Part δ} {dom share : UInt32 → Prop}
  {bytes : δ → ByteMap} (h : Window P dom share bytes) {b : Bus} {w : Width} {a : UInt32}
include h

theorem heldBytes_eq (hshare : share a) : b.heldBytes a = bytes (P.get b.devices) a := by
  have hheld := h.heldBytes_of_share b (P.get b.devices) hshare
  rwa [P.put_get] at hheld

variable (hmap : b.map = standardMap) (ha : w.bytes ∣ a.toNat)
  (hdom : ∀ a' : UInt32, a.toNat ≤ a'.toNat → a'.toNat < a.toNat + w.bytes → dom a')
include hmap ha hdom

theorem perform_read : (BusOperation.read w a).perform b =
    .ok (some (b.heldBytes.load a w.bytes), b) := by
  have hfirst : dom a := hdom a (Nat.le_refl _) (Nat.lt_add_of_pos_right (by cases w <;> decide))
  have hfit : a.toNat + w.bytes ≤ 2 ^ 32 :=
    add_le_of_dvd ha (w.bytes_dvd (by decide)) a.toNat_lt
  have hload : b.heldBytes.load a w.bytes = (bytes (P.get b.devices)).load a w.bytes :=
    ByteMap.load_congr hfit fun a' hle hlt => h.heldBytes_eq (h.share_of_dom (hdom a' hle hlt))
  obtain ⟨r, hr, hdevice, hvalue⟩ := h.holds.read (P.get b.devices) ha hdom
  rw [BusOperation.perform, read_of_part P (h.route hmap hfirst) hr, hload, ← hvalue, hdevice,
    P.put_get]
  rfl

theorem perform_write (value : w.Value) : ∃ b', (BusOperation.write w a value).perform b =
      .ok (none, b') ∧ b'.heldBytes = b.heldBytes.store a w.bytes (w.number value) ∧
      b.SameButHeld b' := by
  have hfirst : dom a := hdom a (Nat.le_refl _) (Nat.lt_add_of_pos_right (by cases w <;> decide))
  obtain ⟨r, hr, hbytes⟩ := h.holds.write (P.get b.devices) value ha hdom
  refine ⟨_, by rw [BusOperation.perform, write_of_part P (h.route hmap hfirst) hr]; rfl, ?_,
    h.same b r.device⟩
  funext a'
  by_cases hshare : share a'
  · rw [h.heldBytes_of_share b r.device hshare, hbytes]
    simp only [ByteMap.store, h.heldBytes_eq hshare]
  · rw [h.heldBytes_of_not_share b r.device hshare, ByteMap.store,
      if_neg fun hin => hshare (h.share_of_dom (hdom a' hin.1 hin.2))]

end Window

/-! ## The three windows -/

theorem window_vif : Window Bank.vifPart InVif InVif PassiveRegisters.bytes where
  holds := PassiveRegisters.holdsBytes fun h hblock => by unfold InVif at *; omega
  route hmap ha := by
    have hmem : (Region.range 0x10003800 0x10004000, UnitId.vif) ∈ standardMap := by decide
    exact route_of_mem hmap hmem ((contains_standardMap_iff hmem).2 ha)
  share_of_dom := id
  heldBytes_of_share _ _ _ ha := if_pos ha
  heldBytes_of_not_share b d a ha := by rw [heldBytes, heldBytes, if_neg ha, if_neg ha]; rfl
  same _ _ := rfl

theorem window_ipu : Window Bank.ipuPart InIpu InIpu PassiveRegisters.bytes where
  holds := PassiveRegisters.holdsBytes fun h hblock => by unfold InIpu at *; omega
  route hmap ha := by
    have hmem : (Region.range 0x10002000 0x10003000, UnitId.ipu) ∈ standardMap := by decide
    exact route_of_mem hmap hmem ((contains_standardMap_iff hmem).2 ha)
  share_of_dom := id
  heldBytes_of_share b d a ha := by
    have hvif : ¬InVif a := by unfold InVif InIpu at *; omega
    rw [heldBytes, if_neg hvif, if_pos ha]
    rfl
  heldBytes_of_not_share b d a ha := by simp only [heldBytes, if_neg ha]; rfl
  same _ _ := rfl

theorem window_gs :
    Window Bank.gsPart Gs.HeldAt (fun a => ¬InVif a ∧ ¬InIpu a) Gs.bytes where
  holds := Gs.holdsBytes
  route hmap ha := by
    obtain ⟨-, register, -, hregister⟩ := ha
    have hmem : (Region.range 0x12000000 0x12002000, UnitId.gs) ∈ standardMap := by decide
    have hbounds := GsRegister.bounds_of_ofAddress? hregister
    exact route_of_mem hmap hmem ((contains_standardMap_iff hmem).2 hbounds)
  share_of_dom ha := by
    obtain ⟨-, register, -, hregister⟩ := ha
    have hbounds := GsRegister.bounds_of_ofAddress? hregister
    unfold InVif InIpu
    omega
  heldBytes_of_share b d a ha := by
    rw [heldBytes, if_neg ha.1, if_neg ha.2]
    rfl
  heldBytes_of_not_share b d a ha := by
    by_cases hvif : InVif a
    · rw [heldBytes, heldBytes, if_pos hvif, if_pos hvif]
      rfl
    · have hipu : InIpu a := Decidable.not_not.1 fun hipu => ha ⟨hvif, hipu⟩
      simp only [heldBytes, if_neg hvif, if_pos hipu]
      rfl
  same _ _ := rfl

/-! ## One access -/

section Access

variable {b : Bus} (hmap : b.map = standardMap) {w : Width} {a : UInt32} (h : w.InHeld a)
include hmap h

/-- A read of held bytes loads them and changes nothing. -/
theorem perform_read_of_inHeld :
    (BusOperation.read w a).perform b = .ok (some (b.heldBytes.load a w.bytes), b) := by
  obtain ⟨ha, hvif | hipu | ⟨hslot, register, hne, hregister⟩⟩ := h
  · exact window_vif.perform_read hmap ha fun a' hle hlt => by unfold InVif; omega
  · exact window_ipu.perform_read hmap ha fun a' hle hlt => by unfold InIpu; omega
  · refine window_gs.perform_read hmap ha fun a' hle hlt => ⟨by omega, register, hne, ?_⟩
    exact (GsRegister.ofAddress?_congr (by omega)).trans hregister

/-- A write of held bytes stores them and changes nothing else. -/
theorem perform_write_of_inHeld (value : w.Value) :
    ∃ b', (BusOperation.write w a value).perform b = .ok (none, b') ∧
      b'.heldBytes = b.heldBytes.store a w.bytes (w.number value) ∧ b.SameButHeld b' := by
  obtain ⟨ha, hvif | hipu | ⟨hslot, register, hne, hregister⟩⟩ := h
  · refine window_vif.perform_write hmap ha (fun a' hle hlt => ?_) value
    unfold InVif
    omega
  · refine window_ipu.perform_write hmap ha (fun a' hle hlt => ?_) value
    unfold InIpu
    omega
  · refine window_gs.perform_write hmap ha (fun a' hle hlt => ?_) value
    exact ⟨by omega, register, hne, (GsRegister.ofAddress?_congr (by omega)).trans hregister⟩

end Access

theorem SameButHeld.refl (b : Bus) : b.SameButHeld b := rfl

theorem SameButHeld.trans {b b' b'' : Bus} (h : b.SameButHeld b') (h' : b'.SameButHeld b'') :
    b.SameButHeld b'' := by
  unfold SameButHeld at h h' ⊢
  rw [h', h]

/-- An access to held bytes is one to the flat array. -/
theorem perform_of_inHeld {b : Bus} (hmap : b.map = standardMap) {operation : BusOperation}
    (h : operation.InHeld) :
    ∃ b', operation.perform b = .ok ((operation.onBytes b.heldBytes).1, b') ∧
      b'.heldBytes = (operation.onBytes b.heldBytes).2 ∧ b.SameButHeld b' := by
  cases operation with
  | read w a => exact ⟨b, perform_read_of_inHeld hmap h, rfl, .refl b⟩
  | write w a value => exact perform_write_of_inHeld hmap h value

/-! ## Sequences of accesses -/

theorem exists_of_performAll {b : Bus} (hmap : b.map = standardMap) {operations : List BusOperation}
    (h : ∀ operation ∈ operations, operation.InHeld) :
    ∃ b', b.performAll operations = .ok ((b.heldBytes.performAll operations).1, b') ∧
      b'.heldBytes = (b.heldBytes.performAll operations).2 ∧ b.SameButHeld b' := by
  induction operations generalizing b with
  | nil => exact ⟨b, rfl, rfl, .refl b⟩
  | cons operation operations ih =>
    obtain ⟨b₁, hperform, hbytes, hsame⟩ := perform_of_inHeld hmap (h operation List.mem_cons_self)
    have hmap₁ : b₁.map = standardMap := (congrArg Bus.map hsame).trans hmap
    obtain ⟨b', hall, hbytes', hsame'⟩ := ih hmap₁ fun operation' hmem =>
      h operation' (List.mem_cons_of_mem _ hmem)
    rw [hbytes] at hall hbytes'
    refine ⟨b', ?_, hbytes', hsame.trans hsame'⟩
    rw [performAll, hperform]
    simp only [bind, Except.bind, hall]
    rfl

/-! ## Reset -/

/-- The byte that is held at an address of a new machine: none is set but that of the revision in the
status register of the graphics unit and that of its interrupt mask. -/
def resetByte (a : UInt32) : UInt8 :=
  if a = 0x12001002 then 0x1B else if a = 0x12001011 then 0x7F else 0

end Bus

theorem PassiveRegisters.bytes_initial (name : String) (a : UInt32) :
    (initial name).bytes a = 0 := by
  have hword : (initial name).word (Peripheral.wordAddress a) = 0 := Std.HashMap.getD_empty
  rw [bytes, hword, digit, UInt32.toNat_zero, Nat.zero_div]
  rfl

namespace Gs

theorem digit_get_initial (register : GsRegister) {i : Nat} (hi : i < 8) :
    digit (initial.get register).toNat i =
      if register = .status ∧ i = 2 then 0x1B
      else if register = .interruptMask ∧ i = 1 then 0x7F else 0 := by
  have hall : ∀ i < 8, digit (initial.get register).toNat i =
      if register = .status ∧ i = 2 then 0x1B
      else if register = .interruptMask ∧ i = 1 then 0x7F else 0 := by
    cases register <;> decide
  exact hall i hi

theorem bytes_initial (a : UInt32) : initial.bytes a = Bus.resetByte a := by
  have hrevision : GsRegister.ofAddress? 0x12001002 = some .status := rfl
  have hmask : GsRegister.ofAddress? 0x12001011 = some .interruptMask := rfl
  cases hregister : GsRegister.ofAddress? a with
  | none =>
    have hne : a ≠ 0x12001002 := by rintro rfl; rw [hrevision] at hregister; cases hregister
    have hne' : a ≠ 0x12001011 := by rintro rfl; rw [hmask] at hregister; cases hregister
    rw [bytes, hregister, Bus.resetByte, if_neg hne, if_neg hne']
    exact ite_self _
  | some register =>
    have hslot := congrArg UInt32.toNat (GsRegister.ofAddress?_eq_some_iff.1 hregister)
    rw [toNat_and_not_mask a 0xF 4 rfl] at hslot
    have hrevision : a = 0x12001002 ↔ register = .status ∧ a.toNat % 16 = 2 := by
      refine ⟨?_, ?_⟩
      · rintro rfl
        exact ⟨Option.some.inj (hregister.symm.trans hrevision), rfl⟩
      · rintro ⟨rfl, hi⟩
        have hslot : a.toNat - a.toNat % 16 = 0x12001000 := hslot
        exact UInt32.toNat_inj.1 (show a.toNat = 0x12001002 by omega)
    have hmask : a = 0x12001011 ↔ register = .interruptMask ∧ a.toNat % 16 = 1 := by
      refine ⟨?_, ?_⟩
      · rintro rfl
        exact ⟨Option.some.inj (hregister.symm.trans hmask), rfl⟩
      · rintro ⟨rfl, hi⟩
        have hslot : a.toNat - a.toNat % 16 = 0x12001010 := hslot
        exact UInt32.toNat_inj.1 (show a.toNat = 0x12001011 by omega)
    rw [bytes, hregister, Option.elim_some, Bus.resetByte]
    simp only [hrevision, hmask]
    split
    · have hi : a.toNat % 8 = a.toNat % 16 := by omega
      rw [digit_get_initial register (Nat.mod_lt _ (by decide)), hi]
    · rw [if_neg (by omega), if_neg (by omega)]

end Gs

namespace Bus

/-- What a new machine holds. -/
theorem heldBytes_initial {b : Bus} (h : b.devices = .initial) (a : UInt32) :
    b.heldBytes a = resetByte a := by
  have hpassive : InVif a ∨ InIpu a → resetByte a = 0 := by
    intro ha
    have hne : a ≠ 0x12001002 := by rintro rfl; revert ha; decide
    have hne' : a ≠ 0x12001011 := by rintro rfl; revert ha; decide
    rw [resetByte, if_neg hne, if_neg hne']
  rw [heldBytes, h]
  split
  · rename_i ha
    rw [hpassive (.inl ha)]
    exact PassiveRegisters.bytes_initial ..
  · split
    · rename_i ha
      rw [hpassive (.inr ha)]
      exact PassiveRegisters.bytes_initial ..
    · exact Gs.bytes_initial a

/-- **The passive registers are one flat array of bytes.** On the standard map, take any sequence of
aligned accesses of all widths to the windows of the vector interfaces and of the image processor,
and of all widths up to a doubleword to the first halves of the slots of the registers of the graphics
unit, the status register excepted. All accesses answer; every read gives the number that the flat
array loads, every write stores the bytes of its value in the array, and nothing else on the bus
changes. A read changes nothing at all. On a new machine the array starts with the reset values. -/
theorem performAll_eq_flat {b : Bus} (hmap : b.map = standardMap) (operations : List BusOperation)
    (h : ∀ operation ∈ operations, operation.InHeld) :
    (∃ b', b.performAll operations = .ok ((b.heldBytes.performAll operations).1, b') ∧
      b'.heldBytes = (b.heldBytes.performAll operations).2 ∧ b.SameButHeld b' ∧
      ∀ (w : Width) (a : UInt32), w.InHeld a →
        (BusOperation.read w a).perform b' = .ok (some (b'.heldBytes.load a w.bytes), b')) ∧
    (b.devices = .initial → ∀ a, b.heldBytes a = resetByte a) := by
  obtain ⟨b', hall, hbytes, hsame⟩ := exists_of_performAll hmap h
  have hmap' : b'.map = standardMap := (congrArg Bus.map hsame).trans hmap
  exact ⟨⟨b', hall, hbytes, hsame, fun w a ha => perform_read_of_inHeld hmap' ha⟩,
    fun hinitial => heldBytes_initial hinitial⟩

/-- A byte of the interrupt mask of the graphics unit that is written between a quadword and a
halfword of the image processor. -/
theorem performAll_eq_flat_mixed :
    let b := (Simulation.initial .standard none).machine.bus
    let operations : List BusOperation :=
      [.write .quad 0x10002FF0 ⟨0x1122334455667788, 0x99AABBCCDDEEFF00⟩,
        .write .byte 0x12001011 (0x0F : UInt8), .read .half 0x10002FF6, .read .double 0x12001010]
    b.map = standardMap ∧ (∀ operation ∈ operations, operation.InHeld) ∧
    (∃ b', b.performAll operations = .ok ((b.heldBytes.performAll operations).1, b') ∧
      b'.heldBytes = (b.heldBytes.performAll operations).2 ∧ b.SameButHeld b' ∧
      ∀ (w : Width) (a : UInt32), w.InHeld a →
        (BusOperation.read w a).perform b' = .ok (some (b'.heldBytes.load a w.bytes), b')) ∧
    (b.devices = .initial → ∀ a, b.heldBytes a = resetByte a) := by
  intro b operations
  have hquad : Width.quad.InHeld 0x10002FF0 := ⟨by decide, .inr (.inl (by decide))⟩
  have hbyte : Width.byte.InHeld 0x12001011 :=
    ⟨by decide, .inr (.inr ⟨by decide, .interruptMask, by decide, rfl⟩)⟩
  have hhalf : Width.half.InHeld 0x10002FF6 := ⟨by decide, .inr (.inl (by decide))⟩
  have hdouble : Width.double.InHeld 0x12001010 :=
    ⟨by decide, .inr (.inr ⟨by decide, .interruptMask, by decide, rfl⟩)⟩
  have hheld : ∀ operation ∈ operations, operation.InHeld :=
    List.forall_mem_cons.2 ⟨hquad, List.forall_mem_cons.2 ⟨hbyte,
      List.forall_mem_cons.2 ⟨hhalf, List.forall_mem_singleton.2 hdouble⟩⟩⟩
  exact ⟨rfl, hheld, performAll_eq_flat (b := b) rfl operations hheld⟩

end Bus

end R5900
