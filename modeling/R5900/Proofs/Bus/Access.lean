import R5900.AddressSpace
import R5900.Bus.Basic
import R5900.Proofs.Device.Bank

/-!
# Aligned accesses

An access at a multiple of its width never crosses the end of what it reaches. The sizes of the
memories and the windows in which they appear are multiples of 16, and so of every width; an access
that starts inside therefore ends inside (`Location.fits_ofVirtual`, `Bus.route_fits`). Addresses on
the bus are below `2 ^ 29`, so no access to a device leaves the address space.

* `Bus.read_eq_ok` and `Bus.write_eq_ok`: aligned accesses on the bus answer.
* `Bus.exists_of_read` and `Bus.exists_of_write`: what an access that answers changes.
* `Bus.Accessed`: one bus comes from another by accesses. What every access keeps is kept
  (`Bus.Accessed.keeps`), and what the accesses to the timers keep is kept of the timers
  (`Bus.Accessed.timer`).
-/

namespace R5900

/-! ## Alignment -/

theorem Width.bytes_dvd_sixteen (w : Width) : w.bytes ∣ 16 := by
  cases w <;> decide

theorem Width.bytes_dvd (w : Width) {n : Nat} (h : 16 ∣ n) : w.bytes ∣ n :=
  Nat.dvd_trans w.bytes_dvd_sixteen h

/-- What starts below a multiple of its width, at a multiple of its width, ends there. -/
theorem add_le_of_dvd {width offset size : Nat} (ho : width ∣ offset) (hs : width ∣ size)
    (h : offset < size) : offset + width ≤ size := by
  obtain ⟨k, rfl⟩ := ho
  obtain ⟨n, rfl⟩ := hs
  have hk : k < n := Nat.lt_of_mul_lt_mul_left h
  calc width * k + width = width * (k + 1) := (Nat.mul_succ width k).symm
    _ ≤ width * n := Nat.mul_le_mul_left width hk

/-- Masking with ones keeps alignment, and what it gives fits below the mask. -/
theorem masked_fits (w : Width) {a mask : UInt32} {k : Nat} (ha : w.bytes ∣ a.toNat)
    (h : mask.toNat = 2 ^ k - 1) (hk : 16 ∣ 2 ^ k) : (a &&& mask).toNat + w.bytes ≤ 2 ^ k := by
  rw [toNat_and_mask a mask k h]
  exact add_le_of_dvd ((Nat.dvd_mod_iff (w.bytes_dvd hk)).2 ha) (w.bytes_dvd hk)
    (Nat.mod_lt a.toNat (Nat.two_pow_pos k))

/-! ## Virtual addresses -/

/-- An access of a width at a location stays in the scratchpad, or is aligned on the bus. -/
def Location.Fits (w : Width) : Location → Prop
  | .scratchpad offset => offset + w.bytes ≤ scratchpadSize
  | .bus a => w.bytes ∣ a.toNat ∧ a.toNat < 2 ^ 29

theorem bus_fits (w : Width) {a : UInt32} (ha : w.bytes ∣ a.toNat) :
    (Location.bus (a &&& 0x1FFFFFFF)).Fits w := by
  show w.bytes ∣ (a &&& 0x1FFFFFFF).toNat ∧ (a &&& 0x1FFFFFFF).toNat < 2 ^ 29
  rw [toNat_and_mask a 0x1FFFFFFF 29 rfl]
  exact ⟨(Nat.dvd_mod_iff (w.bytes_dvd (by decide))).2 ha, Nat.mod_lt _ (by decide)⟩

theorem toNat_sub_of_window {a first last : UInt32} (h : (first ≤ a && a < last) = true) :
    first.toNat ≤ a.toNat ∧ a.toNat < last.toNat ∧ (a - first).toNat = a.toNat - first.toNat := by
  rw [Bool.and_eq_true, decide_eq_true_iff, decide_eq_true_iff] at h
  exact ⟨UInt32.le_iff_toNat_le.1 h.1, UInt32.lt_iff_toNat_lt.1 h.2,
    UInt32.toNat_sub_of_le _ _ h.1⟩

/-- Aligned virtual addresses name locations that fit. -/
theorem Location.fits_ofVirtual (w : Width) {a : UInt32} (ha : w.bytes ∣ a.toNat) :
    (Location.ofVirtual a).Fits w := by
  unfold Location.ofVirtual
  split
  · rename_i h
    obtain ⟨hle, hlt, hsub⟩ := toNat_sub_of_window h
    show (a - scratchpadBase).toNat + w.bytes ≤ scratchpadSize
    rw [show (a - scratchpadBase).toNat = a.toNat - 0x70000000 from hsub]
    have hbase : w.bytes ∣ a.toNat - 0x70000000 := Nat.dvd_sub ha (w.bytes_dvd (by decide))
    exact add_le_of_dvd hbase (w.bytes_dvd (by decide))
      (Nat.sub_lt_left_of_lt_add hle hlt)
  · split
    · rename_i h
      obtain ⟨hle, hlt, -⟩ := toNat_sub_of_window h
      have h0 : (0x10000000 : UInt32) ≤ a :=
        UInt32.le_iff_toNat_le.2 (Nat.le_trans (by decide) hle)
      refine bus_fits w ?_
      rw [UInt32.toNat_sub_of_le _ _ h0]
      exact Nat.dvd_sub ha (w.bytes_dvd (by decide))
    · exact bus_fits w ha

/-! ## Accesses on the bus -/

/-- An access of a width along a route stays in the memory that it reaches. -/
def Route.Fits (w : Width) : Route → Prop
  | .main offset => offset + w.bytes ≤ mainSize
  | .boot offset => offset + w.bytes ≤ bootSize
  | .iop offset => offset + w.bytes ≤ iopSize
  | .device _ => True
  | .unmapped => True

theorem Memory.load_eq_ok {size : Nat} (m : Memory size) (w : Width) {offset : Nat}
    (h : offset + w.bytes ≤ size) : m.load w offset = .ok (m.get w offset) :=
  if_pos (decide_eq_true h)

theorem Memory.store_eq_ok {size : Nat} (m : Memory size) (w : Width) {offset : Nat}
    (value : w.Value) (h : offset + w.bytes ≤ size) :
    m.store w offset value = .ok (m.put w offset value) :=
  if_pos (decide_eq_true h)

namespace Bus

/-- Aligned accesses stay in the memory that answers them. -/
theorem route_fits (w : Width) (b : Bus) {a : UInt32} (ha : w.bytes ∣ a.toNat) :
    (b.route a).Fits w := by
  unfold route
  split
  · exact masked_fits w (k := 25) ha rfl (by decide)
  · split
    · exact masked_fits w (k := 22) ha rfl (by decide)
    · split
      · exact masked_fits w (k := 21) ha rfl (by decide)
      · split <;> trivial

/-- A read on the bus answers if it stays in the memory that it reaches, or if the last word that it
reads from a device stays in the address space. -/
theorem read_eq_ok_of_fits (w : Width) (b : Bus) {a : UInt32} (hfit : (b.route a).Fits w)
    (hlast : ∀ unit, b.route a = .device unit → a.toNat + 12 < 2 ^ 32) :
    ∃ r, b.read w a = .ok r := by
  unfold read
  cases hroute : b.route a with
  | main offset =>
    rw [hroute] at hfit
    exact ⟨_, by rw [readRoute, Memory.load_eq_ok _ _ hfit]; rfl⟩
  | boot offset =>
    rw [hroute] at hfit
    exact ⟨_, by rw [readRoute, Memory.load_eq_ok _ _ hfit]; rfl⟩
  | iop offset =>
    rw [hroute] at hfit
    exact ⟨_, by rw [readRoute, Memory.load_eq_ok _ _ hfit]; rfl⟩
  | device unit =>
    obtain ⟨r, hr⟩ := b.devices.read_eq_ok w unit (hlast unit hroute)
    simp only [readRoute, hr]
    exact ⟨_, rfl⟩
  | unmapped => exact ⟨_, rfl⟩

/-- A write on the bus answers under the same conditions. -/
theorem write_eq_ok_of_fits (w : Width) (b : Bus) {a : UInt32} (value : w.Value)
    (hfit : (b.route a).Fits w)
    (hlast : ∀ unit, b.route a = .device unit → a.toNat + 12 < 2 ^ 32) :
    ∃ r, b.write w a value = .ok r := by
  unfold write
  cases hroute : b.route a with
  | main offset =>
    rw [hroute] at hfit
    simp only [writeRoute, Memory.store_eq_ok _ _ value hfit]
    exact ⟨_, rfl⟩
  | boot offset => exact ⟨_, rfl⟩
  | iop offset =>
    rw [hroute] at hfit
    simp only [writeRoute, Memory.store_eq_ok _ _ value hfit]
    exact ⟨_, rfl⟩
  | device unit =>
    obtain ⟨r, hr⟩ := b.devices.write_eq_ok w unit value (hlast unit hroute)
    simp only [writeRoute, hr]
    exact ⟨_, rfl⟩
  | unmapped => exact ⟨_, rfl⟩

/-- An aligned read on the bus answers. -/
theorem read_eq_ok (w : Width) (b : Bus) {a : UInt32} (ha : w.bytes ∣ a.toNat)
    (hlt : a.toNat < 2 ^ 29) : ∃ r, b.read w a = .ok r :=
  b.read_eq_ok_of_fits w (b.route_fits w ha) fun _ _ => by omega

/-- An aligned write on the bus answers. -/
theorem write_eq_ok (w : Width) (b : Bus) {a : UInt32} (value : w.Value) (ha : w.bytes ∣ a.toNat)
    (hlt : a.toNat < 2 ^ 29) : ∃ r, b.write w a value = .ok r :=
  b.write_eq_ok_of_fits w value (b.route_fits w ha) fun _ _ => by omega

/-- A read that says whether somebody answers is the plain read if somebody does. -/
theorem read_of_tryRead {w : Width} {b : Bus} {a : UInt32} {r : BusReply w.Value}
    (h : b.tryRead w a = .ok (.answered r)) : b.read w a = .ok r := by
  unfold tryRead at h
  unfold read
  cases hroute : b.route a <;> rw [hroute] at h
  case unmapped => cases h
  all_goals
    obtain ⟨r', hr, heq⟩ := exists_of_map_eq_ok h
    cases heq
    exact hr

/-- A write that says whether somebody answers is the plain write if somebody does. -/
theorem write_of_tryWrite {w : Width} {b : Bus} {a : UInt32} {value : w.Value}
    {r : BusReply Unit} (h : b.tryWrite w a value = .ok (.answered r)) :
    b.write w a value = .ok r := by
  unfold tryWrite at h
  unfold write
  cases hroute : b.route a <;> rw [hroute] at h
  case unmapped => cases h
  all_goals
    obtain ⟨r', hr, heq⟩ := exists_of_map_eq_ok h
    cases heq
    exact hr

/-! ## What accesses change -/

/-- What a read on the bus does that answers: nothing, or what the device does that it reaches. -/
theorem exists_of_read {w : Width} {b : Bus} {a : UInt32} {r : BusReply w.Value}
    (h : b.read w a = .ok r) :
    r.bus = b ∨ ∃ unit r', b.route a = .device unit ∧ b.devices.read w unit a = .ok r' ∧
      r.bus = { b with devices := r'.device } := by
  unfold read at h
  cases hroute : b.route a <;> rw [hroute] at h
  case device unit =>
    simp only [readRoute] at h
    cases hr : b.devices.read w unit a with
    | error fault => rw [hr] at h; cases h
    | ok r' =>
      rw [hr] at h
      cases h
      exact .inr ⟨unit, r', rfl, hr, rfl⟩
  case unmapped => cases h; exact .inl rfl
  all_goals
    simp only [readRoute, memoryRead] at h
    split at h <;> cases h
    exact .inl rfl

/-- What a write on the bus does that answers: it changes main memory or that of the other
processor, or what the device does that it reaches. -/
theorem exists_of_write {w : Width} {b : Bus} {a : UInt32} {value : w.Value} {r : BusReply Unit}
    (h : b.write w a value = .ok r) :
    ((∀ unit, b.route a ≠ .device unit) ∧ ∃ main iop, r.bus = { b with main, iop }) ∨
      ∃ unit r', b.route a = .device unit ∧ b.devices.write w unit a value = .ok r' ∧
        r.bus = { b with devices := r'.device } := by
  unfold write at h
  cases hroute : b.route a <;> rw [hroute] at h
  case device unit =>
    simp only [writeRoute] at h
    cases hr : b.devices.write w unit a value with
    | error fault => rw [hr] at h; cases h
    | ok r' =>
      rw [hr] at h
      cases h
      exact .inr ⟨unit, r', rfl, hr, rfl⟩
  case boot => cases h; exact .inl ⟨nofun, b.main, b.iop, rfl⟩
  case unmapped => cases h; exact .inl ⟨nofun, b.main, b.iop, rfl⟩
  case main =>
    simp only [writeRoute] at h
    split at h <;> cases h
    exact .inl ⟨nofun, _, b.iop, rfl⟩
  case iop =>
    simp only [writeRoute] at h
    split at h <;> cases h
    exact .inl ⟨nofun, b.main, _, rfl⟩

/-! ## What accesses keep -/

/-- The bus `b'` comes from the bus `b` by reads and writes. -/
inductive Accessed (b : Bus) : Bus → Prop
  | refl : Accessed b b
  | read {b' : Bus} {w : Width} {a : UInt32} {r : BusReply w.Value} (h : Accessed b b')
      (hr : b'.read w a = .ok r) : Accessed b r.bus
  | write {b' : Bus} {w : Width} {a : UInt32} {value : w.Value} {r : BusReply Unit}
      (h : Accessed b b') (hr : b'.write w a value = .ok r) : Accessed b r.bus

section Timer

variable {P : Timer → Prop} (hP : Peripheral.Keeps P)
include hP

/-- What the accesses to the timers keep, a read on the bus keeps. -/
theorem timer_read {w : Width} {b : Bus} {a : UInt32} {r : BusReply w.Value}
    (hb : P b.devices.timer) (h : b.read w a = .ok r) : P r.bus.devices.timer := by
  rcases exists_of_read h with hbus | ⟨unit, r', -, hr, hbus⟩ <;> rw [hbus]
  · exact hb
  · exact b.devices.timer_read hP hb hr

/-- What the accesses to the timers keep, a write on the bus keeps. -/
theorem timer_write {w : Width} {b : Bus} {a : UInt32} {value : w.Value} {r : BusReply Unit}
    (hb : P b.devices.timer) (h : b.write w a value = .ok r) : P r.bus.devices.timer := by
  rcases exists_of_write h with ⟨-, main, iop, hbus⟩ | ⟨unit, r', -, hr, hbus⟩ <;> rw [hbus]
  · exact hb
  · exact b.devices.timer_write hP hb hr

end Timer

namespace Accessed

variable {b b' b'' : Bus}

theorem trans (h : b.Accessed b') (h' : b'.Accessed b'') : b.Accessed b'' := by
  induction h' with
  | refl => exact h
  | read _ hr ih => exact ih.read hr
  | write _ hr ih => exact ih.write hr

/-- What every access keeps is kept. -/
theorem keeps {P : Bus → Prop}
    (hread : ∀ {w : Width} {b : Bus} {a : UInt32} {r : BusReply w.Value},
      P b → b.read w a = .ok r → P r.bus)
    (hwrite : ∀ {w : Width} {b : Bus} {a : UInt32} {value : w.Value} {r : BusReply Unit},
      P b → b.write w a value = .ok r → P r.bus)
    (h : b.Accessed b') (hb : P b) : P b' := by
  induction h with
  | refl => exact hb
  | read _ hr ih => exact hread ih hr
  | write _ hr ih => exact hwrite ih hr

/-- What the accesses to the timers keep is kept of the timers. -/
theorem timer {P : Timer → Prop} (hP : Peripheral.Keeps P) (h : b.Accessed b')
    (hb : P b.devices.timer) : P b'.devices.timer :=
  h.keeps (P := fun b => P b.devices.timer) (timer_read hP) (timer_write hP) hb

end Accessed

end Bus

end R5900
