import Mathlib.Data.Nat.Count
import R5900.Proofs.Device.Handshake

/-!
# Enumerating the memory devices

Boot firmware writes commands and data to the memory controller and reads its answers, in any order.
Whether a read reports a device is a matter of the whole history: of the last command, and of how
many devices were reported since enumeration started over, which a reset does only if the last data
word lets it.

* `Rdram.Asks` and `Rdram.Resets` say of an access in a history, by the words written before it,
  that it asks for a device and that it starts enumeration over.
* `Rdram.reported_succ`: what one access does to the number of devices that were reported.
* `Rdram.enumerates_devices`: of the reads that ask, exactly the first two report a device, after
  every reset and from a new controller on; and nothing but these reads and resets changes how many
  devices remain.
-/

namespace R5900

namespace Rdram

/-! ## Accesses and their histories -/

/-- An access to a word of the memory controller. -/
inductive Access where
  | readCommand
  | readData
  | writeCommand (value : UInt32)
  | writeData (value : UInt32)
  deriving DecidableEq

/-- The controller after an access. -/
def Access.perform (d : Rdram) : Access → Rdram
  | readCommand => (d.readWord commandAddress).device
  | readData => (d.readWord dataAddress).device
  | writeCommand value => (d.writeWord commandAddress value).device
  | writeData value => (d.writeWord dataAddress value).device

section History

variable (access : Nat → Access)

/-- The controller after the first `k` accesses, from a new one on. -/
def state : Nat → Rdram
  | 0 => initial
  | k + 1 => (access k).perform (state k)

/-- The last command given before access `k`; zero if there was none. -/
def lastCommand : Nat → UInt32
  | 0 => 0
  | k + 1 => match access k with
    | .writeCommand value => value
    | _ => lastCommand k

/-- The last word written to the data register before access `k`; zero if there was none. -/
def lastData : Nat → UInt32
  | 0 => 0
  | k + 1 => match access k with
    | .writeData value => value
    | _ => lastData k

/-- Access `k` asks for a device: it reads the data register under the enumeration command. -/
def Asks (k : Nat) : Prop :=
  access k = .readData ∧ commandRegister (lastCommand access k) = 0x21 ∧
    commandOperation (lastCommand access k) = 0

/-- Access `k` starts enumeration over: it gives operation one on the enumeration register, while
bit 7 of the last data word is clear. -/
def Resets (k : Nat) : Prop :=
  ∃ value, access k = .writeCommand value ∧ commandRegister value = 0x21 ∧
    commandOperation value = 1 ∧ testBit32 (lastData access k) 7 = false

/-- Enumeration starts at access `s`, which is the first one or comes right after a reset. -/
def StartsAt (s : Nat) : Prop := s = 0 ∨ ∃ k, s = k + 1 ∧ Resets access k

instance (k : Nat) : Decidable (Asks access k) := inferInstanceAs (Decidable (_ ∧ _))

/-- How many of the `n` accesses from `s` on ask for a device. -/
def asked (s n : Nat) : Nat := Nat.count (fun i => Asks access (s + i)) n

/-- The answer that a read of the data register gives as access `k`. -/
def answer (k : Nat) : UInt32 := ((state access k).readWord dataAddress).value

/-- How many devices remain to be reported before access `k`. -/
def remaining (k : Nat) : Nat := devices.toNat - (state access k).reported.toNat

end History

/-! ## The stored command -/

theorem stored_eq (value : UInt32) : field32 value 0 31 = value &&& 0x7FFFFFFF := by
  rw [field32, UInt32.shiftRight_zero]
  rfl

/-- The highest bit, which is not stored, is in no field of a command. -/
theorem field32_stored (value : UInt32) {start length : UInt32}
    (h : 0x7FFFFFFF >>> start &&& ((1 : UInt32) <<< length - 1) = (1 : UInt32) <<< length - 1) :
    field32 (field32 value 0 31) start length = field32 value start length := by
  rw [stored_eq, field32, UInt32.shiftRight_and, UInt32.and_assoc, h, field32]

theorem commandRegister_stored (value : UInt32) :
    commandRegister (field32 value 0 31) = commandRegister value :=
  field32_stored value (by decide)

theorem commandOperation_stored (value : UInt32) :
    commandOperation (field32 value 0 31) = commandOperation value :=
  field32_stored value (by decide)

/-! ## One access -/

section Step

variable (access : Nat → Access) (k : Nat)

theorem command_perform (d : Rdram) (a : Access) : (a.perform d).command = match a with
    | .writeCommand value => field32 value 0 31
    | _ => d.command := by
  cases a with
  | readCommand => rfl
  | readData =>
    rw [Access.perform, device_readWord_data]
    split <;> rfl
  | writeCommand value => rfl
  | writeData value => rfl

theorem data_perform (d : Rdram) (a : Access) : (a.perform d).data = match a with
    | .writeData value => value
    | _ => d.data := by
  cases a with
  | readCommand => rfl
  | readData =>
    rw [Access.perform, device_readWord_data]
    split <;> rfl
  | writeCommand value => rfl
  | writeData value => rfl

theorem command_state : (state access k).command = field32 (lastCommand access k) 0 31 := by
  induction k with
  | zero => exact (show field32 0 0 31 = 0 by decide).symm
  | succ k ih =>
    rw [state, command_perform, lastCommand]
    split
    · rfl
    · exact ih

theorem data_state : (state access k).data = lastData access k := by
  induction k with
  | zero => rfl
  | succ k ih =>
    rw [state, data_perform, lastData]
    split
    · rfl
    · exact ih

/-- An access asks for a device if it reads the data register, and the controller enumerates. -/
theorem enumerates_state (h : access k = .readData) : (state access k).Enumerates ↔
    Asks access k ∧ (state access k).reported < devices := by
  rw [Enumerates, command_state, commandRegister_stored, commandOperation_stored, Asks]
  tauto

theorem reported_of_resets (h : Resets access k) : (state access (k + 1)).reported = 0 := by
  obtain ⟨value, haccess, hregister, hoperation, hdata⟩ := h
  rw [state, haccess, Access.perform, writeWord, if_pos rfl]
  simp only [data_state, hregister, hoperation, hdata]
  rfl

/-- A read that asks reports a device while there are any left. -/
theorem reported_of_asks (h : Asks access k) : (state access (k + 1)).reported =
    if (state access k).reported < devices then (state access k).reported + 1
    else (state access k).reported := by
  rw [state, h.1, Access.perform, device_readWord_data]
  simp only [enumerates_state access k h.1, h, true_and]
  split <;> rfl

theorem reported_of_other (hasks : ¬Asks access k) (hresets : ¬Resets access k) :
    (state access (k + 1)).reported = (state access k).reported := by
  rw [state]
  cases haccess : access k with
  | readCommand => rfl
  | readData =>
    rw [Access.perform, device_readWord_data, if_neg fun h => hasks ?_]
    exact ((enumerates_state access k haccess).1 h).1
  | writeCommand value =>
    refine if_neg fun h => hresets ⟨value, haccess, ?_⟩
    simpa [data_state, and_assoc] using h
  | writeData value => rfl

theorem answer_of_operation (h : commandOperation (lastCommand access k) ≠ 0) :
    answer access k = 0 := by
  rw [← commandOperation_stored, ← command_state] at h
  rw [answer, readWord, if_neg (by decide), if_pos rfl, if_pos (bne_iff_ne.2 h)]

theorem answer_of_asks (h : Asks access k) :
    answer access k = if (state access k).reported < devices then 0x1F else 0 := by
  obtain ⟨-, hregister, hoperation⟩ := h
  rw [← commandRegister_stored, ← command_state] at hregister
  rw [← commandOperation_stored, ← command_state] at hoperation
  rw [answer, readWord, if_neg (by decide), if_pos rfl, if_neg (by simp [hoperation])]
  simp only [hregister]
  split <;> rfl

end Step

/-! ## What remains -/

section Remaining

variable (access : Nat → Access) {k : Nat}

theorem remaining_pos_iff : 0 < remaining access k ↔ (state access k).reported < devices :=
  Nat.sub_pos_iff_lt

theorem remaining_of_resets (h : Resets access k) : remaining access (k + 1) = devices.toNat := by
  rw [remaining, reported_of_resets access k h]
  rfl

theorem remaining_of_asks (h : Asks access k) :
    remaining access (k + 1) = remaining access k - 1 := by
  rw [remaining, remaining, reported_of_asks access k h]
  split
  case isTrue hleft =>
    have hleft : (state access k).reported.toNat + 1 ≤ 2 := hleft
    have hnext : ((state access k).reported + 1).toNat = (state access k).reported.toNat + 1 :=
      (UInt32.toNat_add ..).trans (Nat.mod_eq_of_lt (Nat.lt_of_le_of_lt hleft (by decide)))
    rw [hnext, Nat.sub_add_eq]
  case isFalse hnone =>
    have hzero : devices.toNat - (state access k).reported.toNat = 0 :=
      Nat.sub_eq_zero_of_le (Nat.le_of_not_lt hnone)
    rw [hzero]

theorem remaining_of_other (hasks : ¬Asks access k) (hresets : ¬Resets access k) :
    remaining access (k + 1) = remaining access k := by
  rw [remaining, remaining, reported_of_other access k hasks hresets]

theorem remaining_of_startsAt {s : Nat} (h : StartsAt access s) :
    remaining access s = devices.toNat := by
  rcases h with rfl | ⟨k, rfl, hresets⟩
  · rfl
  · exact remaining_of_resets access hresets

/-- Until the next reset, a device less remains for every read that asked. -/
theorem remaining_eq {s : Nat} (hstart : StartsAt access s) (n : Nat)
    (hnone : ∀ i < n, ¬Resets access (s + i)) :
    remaining access (s + n) = devices.toNat - asked access s n := by
  induction n with
  | zero => exact remaining_of_startsAt access hstart
  | succ n ih =>
    have hn := ih fun i hi => hnone i (Nat.lt_succ_of_lt hi)
    rw [asked, Nat.count_succ]
    by_cases hasks : Asks access (s + n)
    · rw [if_pos hasks, ← Nat.add_assoc, remaining_of_asks access hasks, hn]
      rfl
    · rw [if_neg hasks, ← Nat.add_assoc,
        remaining_of_other access hasks (hnone n (Nat.lt_succ_self n)), hn]
      rfl

end Remaining

/-! ## Enumeration -/

/-- The accesses enumerate two devices after every start. -/
structure EnumeratesDevices (access : Nat → Access) : Prop where
  /-- Of the reads that ask between a start and the next reset, the first two report a device. -/
  reports : ∀ s n, StartsAt access s → (∀ i < n, ¬Resets access (s + i)) → Asks access (s + n) →
    answer access (s + n) = if asked access s n < 2 then 0x1F else 0
  /-- The devices that remain are those that were not reported to a read that asked. -/
  remains : ∀ s n, StartsAt access s → (∀ i < n, ¬Resets access (s + i)) →
    remaining access (s + n) = 2 - asked access s n
  /-- A read under a command with an operation of its own is answered by zero. -/
  silent : ∀ k, access k = .readData → commandOperation (lastCommand access k) ≠ 0 →
    answer access k = 0
  /-- All other accesses leave as many devices as there were. -/
  keeps : ∀ k, ¬Asks access k → ¬Resets access k → remaining access (k + 1) = remaining access k

/-- **Enumeration reports two devices after every reset.** Let the command and the data register be
read and written in any order, from a new controller on. Of the reads that ask for a device between
the start, or a reset, and the next reset, exactly the first two report one, and all later ones
answer zero. A read under a command with an operation of its own answers zero; and neither such a
read, nor one under another command, nor a read of the command register, nor a write that is no reset
changes how many devices remain. -/
theorem enumerates_devices (access : Nat → Access) : EnumeratesDevices access where
  reports s n hstart hnone hasks := by
    rw [answer_of_asks access _ hasks]
    refine if_congr ?_ rfl rfl
    rw [← remaining_pos_iff, remaining_eq access hstart n hnone]
    exact Nat.sub_pos_iff_lt
  remains _ n hstart hnone := remaining_eq access hstart n hnone
  silent k _ h := answer_of_operation access k h
  keeps _ := remaining_of_other access

/-- A data word with bit 7 set holds a reset off: the two devices are not reported again before
another data word lets the reset through. -/
example :
    let access : Nat → Access
      | 0 => .writeCommand 0x210000
      | 4 => .writeData 0x80
      | 5 => .writeCommand 0x210040
      | 6 => .writeCommand 0x210000
      | 8 => .writeData 0
      | 9 => .writeCommand 0x210040
      | 10 => .writeCommand 0x210000
      | _ => .readData
    [1, 2, 3, 7, 11, 12, 13].map (answer access) = [0x1F, 0x1F, 0, 0, 0x1F, 0x1F, 0] := by
  decide

end Rdram

end R5900
