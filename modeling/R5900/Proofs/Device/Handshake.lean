import R5900.Proofs.Device.NarrowWrite

/-!
# Narrow writes to the memory controller

A narrow write reads the containing word, replaces its lane and writes the word back. The two
registers of the memory controller are no words to read back: the command register always reads
zero, and a read of the data register is the answer of a device, which enumeration gives only once.
So a narrow write to the command register clears the rest of the command (`Rdram.CommandLane`), and
one to the data register puts the rest of an answer beside its lane and takes the answer from
whoever would read it next (`Rdram.DataLane`).

Neither ever starts enumeration over: the register and the operation of a command do not fit into
one lane (`Rdram.not_resets_of_lane`).
-/

namespace R5900

open Peripheral

namespace Rdram

/-- The next read of the data register reports a device that was not reported yet. -/
def Enumerates (d : Rdram) : Prop :=
  commandOperation d.command = 0 ∧ commandRegister d.command = 0x21 ∧ d.reported < devices

instance (d : Rdram) : Decidable d.Enumerates := inferInstanceAs (Decidable (_ ∧ _))

/-- Two words have the same bits around a lane. -/
def AgreesAround (lane : UInt32) (bits : Nat) (word word' : UInt32) : Prop :=
  ∀ p < 32, ¬InLane lane bits p → testBit32 word p = testBit32 word' p

/-- A merged word keeps a word around the lane exactly if that is the one it takes its bits from. -/
theorem agreesAround_iff_of_mergesLane {lane : UInt32} {bits : Nat} {new old merged : UInt32}
    (h : MergesLane lane bits new old merged) (word : UInt32) :
    AgreesAround lane bits word merged ↔ AgreesAround lane bits word old :=
  forall₃_congr fun p hp hout => by rw [h.outside p hp hout]

/-- `d'` is `d` after a value of `bits` bits is written into a lane of the command register: the
command has zeros around the lane, so it keeps the bits there exactly if they are zero. -/
structure CommandLane (d d' : Rdram) (lane : UInt32) (bits : Nat) (value : UInt32) : Prop where
  command : MergesLane lane bits (field32 (value <<< lane) 0 31) 0 d'.command
  keeps_iff : AgreesAround lane bits d.command d'.command ↔ AgreesAround lane bits d.command 0
  data : d'.data = d.data
  reported : d'.reported = d.reported

/-- `d'` is `d` after a value of `bits` bits is written into a lane of the data register: the data
word has around the lane what a device answered, so it keeps the bits there exactly if they are
those of the answer, and an answer of the enumeration counts. -/
structure DataLane (d d' : Rdram) (lane : UInt32) (bits : Nat) (value : UInt32) : Prop where
  data : MergesLane lane bits (value <<< lane) (shown d dataAddress) d'.data
  keeps_iff : AgreesAround lane bits d.data d'.data ↔
    AgreesAround lane bits d.data (shown d dataAddress)
  command : d'.command = d.command
  reported : d'.reported = if d.Enumerates then d.reported + 1 else d.reported

/-! ## Words of a lane -/

section Lane

variable {lane value : UInt32} {bits : Nat} (hlane : lane < 32) (hvalue : value.toNat < 2 ^ bits)
include hlane hvalue

theorem inLane_of_testBit {i : UInt32} (hi : i < 32)
    (h : (value <<< lane).toNat.testBit i.toNat = true) : InLane lane bits i := by
  by_contra hout
  have hclear := testBit32_value hlane hi hvalue hout
  rw [testBit32_eq, Nat.mod_eq_of_lt (show i.toNat < 32 from hi), h] at hclear
  cases hclear

/-- A lane of at most a halfword does not hold both the register and the operation of a reset. -/
theorem not_resets_of_lane (hbits : bits ≤ 16) (hdvd : 8 ∣ lane.toNat) :
    ¬(commandRegister (value <<< lane) = 0x21 ∧ commandOperation (value <<< lane) = 1) := by
  rintro ⟨hregister, hoperation⟩
  have hsixteen : testBit32 (field32 (value <<< lane) 16 8) 0 = true :=
    (congrArg (testBit32 · 0) hregister).trans (by decide)
  have hsix : testBit32 (field32 (value <<< lane) 6 4) 0 = true :=
    (congrArg (testBit32 · 0) hoperation).trans (by decide)
  rw [testBit32_field32 _ (by decide) (by decide) (by decide)] at hsixteen hsix
  have hhigh : InLane lane bits 16 := inLane_of_testBit hlane hvalue (by decide) hsixteen
  have hlow : InLane lane bits 6 := inLane_of_testBit hlane hvalue (by decide) hsix
  have hhigh : 16 < lane.toNat + bits := hhigh.2
  have hlow : lane.toNat ≤ 6 := hlow.1
  omega

end Lane

/-! ## Writes to a lane -/

theorem device_readWord_data (d : Rdram) :
    (d.readWord dataAddress).device =
      if d.Enumerates then { d with reported := d.reported + 1 } else d := by
  rw [readWord, if_neg (by decide), if_pos rfl]
  by_cases hoperation : commandOperation d.command = 0
  · rw [if_neg (by simp [hoperation])]
    by_cases hregister : commandRegister d.command = 0x21
    · simp only [hregister, Enumerates, hoperation, true_and]
      split <;> rfl
    · rw [if_neg (show ¬d.Enumerates from fun h => hregister h.2.1)]
      split
      case h_1 h => exact absurd h hregister
      all_goals rfl
  · rw [if_pos (by simp [hoperation]), if_neg fun h => hoperation h.1]

section Write

variable (d : Rdram) {address lane mask value : UInt32} {bits : Nat} (hlane : lane < 32)
  (hvalue : value.toNat < 2 ^ bits)
include hlane hvalue

theorem commandLane_writeLane (haddress : wordAddress address = commandAddress) (hbits : bits ≤ 16)
    (hdvd : 8 ∣ lane.toNat) :
    CommandLane d (writeLane d address lane mask value).device lane bits value := by
  have hwrite : (writeLane d address lane mask value).device =
      (d.writeWord commandAddress (value <<< lane)).device := by
    rw [writeLane, haddress]
    show (d.writeWord commandAddress
      (0 &&& 0xFFFFFFFF &&& ~~~(mask <<< lane) ||| value <<< lane)).device = _
    rw [UInt32.zero_and, UInt32.zero_and, UInt32.zero_or]
  rw [hwrite, writeWord, if_pos rfl]
  have hmerges : MergesLane lane bits (field32 (value <<< lane) 0 31) 0
      (field32 (value <<< lane) 0 31) := by
    refine ⟨fun _ _ _ => rfl, fun p hp hout => ?_⟩
    have hclear := testBit32_value hlane hp hvalue hout
    rw [testBit32_eq, Nat.mod_eq_of_lt (show p.toNat < 32 from hp)] at hclear
    rw [testBit32_field32 _ (by decide) (by decide) hp, testBit32_zero]
    show (_ && (value <<< lane).toNat.testBit (0 + p.toNat)) = false
    rw [Nat.zero_add, hclear, Bool.and_false]
  refine ⟨hmerges, agreesAround_iff_of_mergesLane hmerges d.command, rfl, if_neg fun hresets => ?_⟩
  simp only [Bool.and_eq_true, decide_eq_true_iff] at hresets
  exact not_resets_of_lane hlane hvalue hbits hdvd hresets.1

theorem dataLane_writeLane (haddress : wordAddress address = dataAddress)
    (hmask : mask.toNat = 2 ^ bits - 1) :
    DataLane d (writeLane d address lane mask value).device lane bits value := by
  have hwrite : (writeLane d address lane mask value).device =
      { (d.readWord dataAddress).device with
        data := shown d dataAddress &&& ~~~(mask <<< lane) ||| value <<< lane } := by
    rw [writeLane, haddress]
    show ((d.readWord dataAddress).device.writeWord dataAddress
      (shown d dataAddress &&& 0xFFFFFFFF &&& ~~~(mask <<< lane) ||| value <<< lane)).device = _
    rw [and_ones32, writeWord, if_neg (by decide), if_pos rfl]
  have hmerges : MergesLane lane bits (value <<< lane) (shown d dataAddress)
      (shown d dataAddress &&& ~~~(mask <<< lane) ||| value <<< lane) := by
    refine ⟨fun p hp hin => ?_, fun p hp hout => ?_⟩
    · have hset := (testBit32_lane hlane hp hmask).2 hin
      simp [hset]
    · have hclear := mt (testBit32_lane hlane hp hmask).1 hout
      rw [Bool.not_eq_true] at hclear
      simp [hclear, testBit32_value hlane hp hvalue hout]
  rw [hwrite, device_readWord_data]
  refine ⟨hmerges, agreesAround_iff_of_mergesLane hmerges d.data, ?_, ?_⟩
  · split <;> rfl
  · split <;> rfl

end Write

/-- **A narrow write to the memory controller does not keep the rest of its word.** In every state
and for every lane, a byte or halfword written to the command register leaves zeros around it and
never starts enumeration over; one written to the data register leaves around it the answer that a
read would have given, and uses up that answer. So the rest of the word is kept exactly if it is
zero, or what is answered, and no answer is used up exactly if no device is enumerated. -/
theorem narrowWrites_handshake (d : Rdram) :
    (∀ k : UInt32, k < 4 → ∀ v : UInt8,
      CommandLane d (writeByte d (commandAddress + k) v).device (8 * k) 8 v.toUInt32 ∧
        DataLane d (writeByte d (dataAddress + k) v).device (8 * k) 8 v.toUInt32) ∧
      ∀ k : UInt32, k = 0 ∨ k = 2 → ∀ v : UInt16,
        CommandLane d (writeHalf d (commandAddress + k) v).device (8 * k) 16 v.toUInt32 ∧
          DataLane d (writeHalf d (dataAddress + k) v).device (8 * k) 16 v.toUInt32 := by
  have hdvd : ∀ {k : UInt32}, k < 4 → 8 ∣ (8 * k).toNat := by
    intro k hk
    have hk : k.toNat < 4 := hk
    rw [UInt32.toNat_mul]
    show 8 ∣ 8 * k.toNat % 2 ^ 32
    omega
  have hcommand : 4 ∣ commandAddress.toNat := by decide
  have hdata : 4 ∣ dataAddress.toNat := by decide
  refine ⟨fun k hk v => ?_, fun k heven v => ?_⟩
  · have hvalue : v.toUInt32.toNat < 2 ^ 8 := by
      rw [UInt8.toNat_toUInt32]
      exact v.toNat_lt
    rw [writeByte, writeByte, byteLane_lane hk hcommand, byteLane_lane hk hdata]
    exact ⟨commandLane_writeLane d (lane_lt hk) hvalue (wordAddress_lane hk hcommand) (by decide)
      (hdvd hk), dataLane_writeLane d (lane_lt hk) hvalue (wordAddress_lane hk hdata) rfl⟩
  · have hk : k < 4 := by rcases heven with rfl | rfl <;> decide
    have hvalue : v.toUInt32.toNat < 2 ^ 16 := by
      rw [UInt16.toNat_toUInt32]
      exact v.toNat_lt
    rw [writeHalf, writeHalf, halfLane_lane hk hcommand heven, halfLane_lane hk hdata heven]
    exact ⟨commandLane_writeLane d (lane_lt hk) hvalue (wordAddress_lane hk hcommand) (by decide)
      (hdvd hk), dataLane_writeLane d (lane_lt hk) hvalue (wordAddress_lane hk hdata) rfl⟩

/-- A byte written beside the register of a command, and one written into the data register while
devices are enumerated. -/
theorem narrowWrites_handshake_enumerating :
    let d := (initial.writeWord commandAddress 0x210000).device
    d.Enumerates ∧
      CommandLane d (writeByte d (commandAddress + 3) 0).device (8 * 3) 8 (0 : UInt8).toUInt32 ∧
      DataLane d (writeByte d (dataAddress + 1) 0).device (8 * 1) 8 (0 : UInt8).toUInt32 := by
  intro d
  obtain ⟨hbytes, -⟩ := narrowWrites_handshake d
  exact ⟨by decide, (hbytes 3 (by decide) 0).1, (hbytes 1 (by decide) 0).2⟩

/-- Zero bytes written beside a command and into the data register: the first clears the command,
the second takes the answer of the first device, although no command was given. -/
theorem narrowWrites_lose_handshake :
    let asked := (initial.writeWord commandAddress 0x400015).device
    let enumerating := (initial.writeWord commandAddress 0x210000).device
    (¬InLane (8 * 3) 8 22 ∧ testBit32 asked.command 22 = true ∧
        testBit32 (writeByte asked (commandAddress + 3) 0).device.command 22 = false ∧
        shown asked dataAddress = 0x15 ∧
        shown (writeByte asked (commandAddress + 3) 0).device dataAddress = 0) ∧
      enumerating.reported = 0 ∧ (writeByte enumerating dataAddress 0).device.reported = 1 ∧
        (writeByte enumerating dataAddress 0).device.command = enumerating.command ∧
        enumerating.data = 0 ∧ (writeByte enumerating (dataAddress + 1) 0).device.data = 0x1F := by
  decide

end Rdram

end R5900
