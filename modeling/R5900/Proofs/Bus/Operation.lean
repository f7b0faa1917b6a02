import R5900.Proofs.Bus.StandardMap
import R5900.Proofs.Bytes
import R5900.Proofs.Device.Bank

/-!
# Accesses to a device over the bus

An access whose route leads to a part of the bank is an access to the device there, and every other
access leaves the device as it is (`Bus.part_of_read`, `Bus.part_of_write`). On the standard map
every aligned access answers, and so does a read at any address between the memories
(`Bus.exists_of_perform`).
-/

namespace R5900

/-- An access on the bus. -/
inductive BusOperation where
  | read (width : Width) (address : UInt32)
  | write (width : Width) (address : UInt32) (value : width.Value)

namespace BusOperation

/-- Make an access. It gives the number that it reads, if it is a read, and the bus afterwards. -/
def perform (b : Bus) : BusOperation → Except Fault (Option Nat × Bus)
  | read w a => do
    let r ← b.read w a
    return (some (w.number r.value), r.bus)
  | write w a value => do
    let r ← b.write w a value
    return (none, r.bus)

/-- A write at a multiple of its width, or a read there or between the memories at any address. -/
def Answerable : BusOperation → Prop
  | read w a => w.bytes ∣ a.toNat ∨ 0x10000000 ≤ a.toNat ∧ a.toNat < 0x1C000000
  | write w a _ => w.bytes ∣ a.toNat

end BusOperation

/-! ## Accesses to a part -/

namespace Bus

section Part

variable {δ : Type} [Peripheral δ] (P : Bank.Part δ) {w : Width} {b : Bus} {a : UInt32}

theorem read_of_part {r : Reply δ w.Value} (hroute : b.route a = .device P.unit)
    (hr : Peripheral.read w (P.get b.devices) a = .ok r) :
    b.read w a = .ok ⟨r.value, { b with devices := P.put b.devices r.device },
      r.notes ++ [deviceReadNote a]⟩ := by
  simp only [read, hroute, readRoute, P.read_eq, hr, Bank.answer]

theorem write_of_part {value : w.Value} {r : Reply δ Unit} (hroute : b.route a = .device P.unit)
    (hr : Peripheral.write w (P.get b.devices) a value = .ok r) :
    b.write w a value = .ok ⟨(), { b with devices := P.put b.devices r.device },
      deviceWriteNote a :: r.notes⟩ := by
  simp only [write, hroute, writeRoute, P.write_eq, hr, Bank.answer]

/-- A read changes the device of a part as a read of the device does if its route leads there, and
not at all otherwise. -/
theorem part_of_read {r : BusReply w.Value} (h : b.read w a = .ok r) :
    (∃ r', Peripheral.read w (P.get b.devices) a = .ok r' ∧
      P.get r.bus.devices = r'.device) ∨ P.get r.bus.devices = P.get b.devices := by
  rcases exists_of_read h with hbus | ⟨unit, r', -, hr, hbus⟩ <;> rw [hbus]
  · exact .inr rfl
  · by_cases hunit : unit = P.unit
    · subst hunit
      rw [P.read_eq] at hr
      obtain ⟨r'', hr'', hd⟩ := Bank.exists_of_answer_eq_ok hr
      exact .inl ⟨r'', hr'', (congrArg P.get hd).trans (P.get_put ..)⟩
    · exact .inr (P.get_of_sameBut hunit (Bank.sameBut_of_read hr))

/-- A write changes the device of a part as a write to the device does if its route leads there, and
not at all otherwise. -/
theorem part_of_write {value : w.Value} {r : BusReply Unit} (h : b.write w a value = .ok r) :
    (b.route a = .device P.unit ∧ ∃ r', Peripheral.write w (P.get b.devices) a value = .ok r' ∧
      P.get r.bus.devices = r'.device) ∨
    b.route a ≠ .device P.unit ∧ P.get r.bus.devices = P.get b.devices := by
  rcases exists_of_write h with ⟨hroute, main, iop, hbus⟩ | ⟨unit, r', hroute, hr, hbus⟩ <;>
    rw [hbus]
  · exact .inr ⟨hroute P.unit, rfl⟩
  · by_cases hunit : unit = P.unit
    · subst hunit
      rw [P.write_eq] at hr
      obtain ⟨r'', hr'', hd⟩ := Bank.exists_of_answer_eq_ok hr
      exact .inl ⟨hroute, r'', hr'', (congrArg P.get hd).trans (P.get_put ..)⟩
    · refine .inr ⟨fun hpart => hunit ?_, P.get_of_sameBut hunit (Bank.sameBut_of_write hr)⟩
      exact Route.device.inj (hroute.symm.trans hpart)

end Part

/-- An access that answers leaves the map as it is. -/
theorem map_of_perform {b : Bus} {operation : BusOperation} {answer : Option Nat × Bus}
    (h : operation.perform b = .ok answer) : answer.2.map = b.map := by
  cases operation with
  | read w a =>
    obtain ⟨r, hr, h⟩ := exists_of_bind_eq_ok h
    cases h
    show r.bus.map = b.map
    rcases exists_of_read hr with hbus | ⟨-, r', -, -, hbus⟩ <;> rw [hbus]
  | write w a value =>
    obtain ⟨r, hr, h⟩ := exists_of_bind_eq_ok h
    cases h
    show r.bus.map = b.map
    rcases exists_of_write hr with ⟨-, main, iop, hbus⟩ | ⟨-, r', -, -, hbus⟩ <;> rw [hbus]

/-! ## Accesses that answer -/

section Map

variable {b : Bus} (hmap : b.map = standardMap)
include hmap

theorem toNat_add_lt_of_device {unit : UnitId} {a : UInt32} (h : b.route a = .device unit) :
    a.toNat + 12 < 2 ^ 32 := by
  obtain ⟨region, hmem, hcontains⟩ := exists_mem_of_route hmap h
  obtain ⟨-, hlt⟩ := (contains_standardMap_iff hmem).1 hcontains
  have hstop := (standardMap_inDeviceSpace hmem).stop_le
  omega

theorem exists_of_perform {operation : BusOperation} (h : operation.Answerable) :
    ∃ answer, operation.perform b = .ok answer := by
  cases operation with
  | read w a =>
    have hfit : (b.route a).Fits w := by
      rcases h with haligned | ⟨hlow, hhigh⟩
      · exact b.route_fits w haligned
      · rw [b.route_of_device_space hlow hhigh]
        cases unitAt? b.map a <;> trivial
    obtain ⟨r, hr⟩ := b.read_eq_ok_of_fits w hfit fun _ => toNat_add_lt_of_device hmap
    exact ⟨(some (w.number r.value), r.bus), by rw [BusOperation.perform, hr]; rfl⟩
  | write w a value =>
    obtain ⟨r, hr⟩ :=
      b.write_eq_ok_of_fits w value (b.route_fits w h) fun _ => toNat_add_lt_of_device hmap
    exact ⟨(none, r.bus), by rw [BusOperation.perform, hr]; rfl⟩

end Map

end Bus

end R5900
