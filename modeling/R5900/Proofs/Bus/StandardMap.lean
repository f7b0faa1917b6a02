import R5900.Proofs.Cell
import R5900.Simulation

/-!
# The map of the standard machine

The regions of the standard map consist of whole slots of 16 bytes, lie between main memory and the
memory of the input/output processor, and do not overlap. So the device in whose region an address
lies answers there (`Bus.route_of_mem`), no other entry of the map claims the address
(`filter_standardMap`), and all addresses of a slot have the same device: an aligned access never
leaves the slot of a word that it overlaps (`slot_eq_of_overlap`).

* `Bus.tryRead_of_route` and `Bus.tryWrite_of_route`: the device that a route leads to answers the
  access.
-/

namespace R5900

/-! ## Regions -/

namespace Region

/-- The first address of a region. -/
def first : Region → Nat
  | .slot start => start.toNat
  | .range start _ => start.toNat

/-- The address after the last one of a region. -/
def stop : Region → Nat
  | .slot start => start.toNat + 16
  | .range _ stop => stop.toNat

theorem contains_iff {region : Region} (h : 16 ∣ region.first) (a : UInt32) :
    region.contains a = true ↔ region.first ≤ a.toNat ∧ a.toNat < region.stop := by
  cases region with
  | range start stop => exact window_iff a start stop
  | slot start =>
    have hstart : 16 ∣ start.toNat := h
    have hslot := toNat_and_not_mask a 0xF 4 rfl
    show decide (a &&& ~~~0xF = start) = true ↔ start.toNat ≤ a.toNat ∧ a.toNat < start.toNat + 16
    rw [decide_eq_true_iff, ← UInt32.toNat_inj, hslot]
    omega

end Region

/-! ## The standard map -/

/-- A region of whole slots between main memory and the memory of the input/output processor. -/
structure Region.InDeviceSpace (region : Region) : Prop where
  first_dvd : 16 ∣ region.first
  stop_dvd : 16 ∣ region.stop
  le_first : 0x10000000 ≤ region.first
  stop_le : region.stop ≤ 0x1C000000

theorem standardMap_inDeviceSpace {region : Region} {unit : UnitId}
    (h : (region, unit) ∈ standardMap) : region.InDeviceSpace := by
  have hall : ∀ entry ∈ standardMap, 16 ∣ entry.1.first ∧ 16 ∣ entry.1.stop ∧
      0x10000000 ≤ entry.1.first ∧ entry.1.stop ≤ 0x1C000000 := by decide
  obtain ⟨hfirst, hstop, hle, hlast⟩ := hall _ h
  exact ⟨hfirst, hstop, hle, hlast⟩

theorem standardMap_disjoint :
    standardMap.Pairwise fun x y => x.1.stop ≤ y.1.first ∨ y.1.stop ≤ x.1.first := by
  decide

section Entry

variable {region : Region} {unit : UnitId} (h : (region, unit) ∈ standardMap) {a a' : UInt32}
include h

theorem contains_standardMap_iff :
    region.contains a = true ↔ region.first ≤ a.toNat ∧ a.toNat < region.stop :=
  Region.contains_iff (standardMap_inDeviceSpace h).first_dvd a

/-- The entries of the map claim whole slots. -/
theorem contains_of_slot_eq (hslot : a'.toNat / 16 = a.toNat / 16)
    (ha : region.contains a = true) : region.contains a' = true := by
  obtain ⟨hfirst, hstop, -, -⟩ := standardMap_inDeviceSpace h
  rw [contains_standardMap_iff h] at ha ⊢
  omega

/-- Only one entry of the map claims an address. -/
theorem filter_standardMap (ha : region.contains a = true) :
    standardMap.filter (fun entry => entry.1.contains a) = [(region, unit)] := by
  have hmem : (region, unit) ∈ standardMap.filter (fun entry => entry.1.contains a) :=
    List.mem_filter.2 ⟨h, ha⟩
  have hdisjoint := standardMap_disjoint.filter fun entry => entry.1.contains a
  have hclaims : ∀ entry ∈ standardMap.filter (fun entry => entry.1.contains a),
      entry.1.first ≤ a.toNat ∧ a.toNat < entry.1.stop := fun entry hentry =>
    (contains_standardMap_iff (List.mem_filter.1 hentry).1).1 (List.mem_filter.1 hentry).2
  cases hentries : standardMap.filter (fun entry => entry.1.contains a) with
  | nil => rw [hentries] at hmem; cases hmem
  | cons entry entries =>
    rw [hentries] at hmem hdisjoint hclaims
    cases entries with
    | nil => rw [List.mem_singleton.1 hmem]
    | cons entry' entries =>
      have hdisjoint := (List.pairwise_cons.1 hdisjoint).1 entry' List.mem_cons_self
      have hfirst := hclaims entry List.mem_cons_self
      have hsecond := hclaims entry' (List.mem_cons_of_mem _ List.mem_cons_self)
      omega

end Entry

/-- Addresses between the memories are those of the devices. -/
theorem Bus.route_of_device_space (b : Bus) {a : UInt32} (hlow : 0x10000000 ≤ a.toNat)
    (hhigh : a.toNat < 0x1C000000) :
    b.route a = (unitAt? b.map a).elim .unmapped .device := by
  have hmain : ¬a < 0x10000000 := fun hlt => Nat.not_le_of_lt (UInt32.lt_iff_toNat_lt.1 hlt) hlow
  have hboot : ¬(0x1FC00000 ≤ a && a < 0x20000000) = true := by
    rw [window_iff]
    exact fun hin => Nat.not_le_of_lt hhigh (Nat.le_trans (by decide) hin.1)
  have hiop : ¬(0x1C000000 ≤ a && a < 0x1C200000) = true := by
    rw [window_iff]
    exact fun hin => Nat.not_le_of_lt hhigh hin.1
  rw [route, if_neg hmain, if_neg hboot, if_neg hiop]
  cases unitAt? b.map a <;> rfl

/-- The unit in whose region an address lies answers there. -/
theorem Bus.route_of_mem {b : Bus} (hmap : b.map = standardMap) {region : Region} {unit : UnitId}
    (h : (region, unit) ∈ standardMap) {a : UInt32} (ha : region.contains a = true) :
    b.route a = .device unit := by
  obtain ⟨-, -, hfirst, hstop⟩ := standardMap_inDeviceSpace h
  obtain ⟨hle, hlt⟩ := (contains_standardMap_iff h).1 ha
  have hfind : unitAt? b.map a = some unit := by
    rw [hmap, unitAt?, ← List.head?_filter, filter_standardMap h ha]
    rfl
  rw [b.route_of_device_space (Nat.le_trans hfirst hle) (Nat.lt_of_lt_of_le hlt hstop), hfind,
    Option.elim_some]

/-- Where a device answers, one of its regions lies. -/
theorem Bus.exists_mem_of_route {b : Bus} (hmap : b.map = standardMap) {unit : UnitId} {a : UInt32}
    (h : b.route a = .device unit) :
    ∃ region, (region, unit) ∈ standardMap ∧ region.contains a = true := by
  unfold route at h
  split at h
  · cases h
  · split at h
    · cases h
    · split at h
      · cases h
      · cases hunit : unitAt? b.map a with
        | none => rw [hunit] at h; cases h
        | some unit' =>
          rw [hunit] at h
          cases h
          obtain ⟨entry, hfind, rfl⟩ := Option.map_eq_some_iff.1 hunit
          rw [hmap] at hfind
          have hclaims := List.find?_some (p := fun entry : Region × UnitId => entry.1.contains a) hfind
          exact ⟨entry.1, List.mem_of_find?_eq_some hfind, hclaims⟩

/-! ## Accesses that meet a word -/

/-- An aligned access stays in the slot of a word that it overlaps. -/
theorem slot_eq_of_overlap {w : Width} {address a : UInt32} (haddress : w.bytes ∣ address.toNat)
    (ha : 4 ∣ a.toNat) (h : address.toNat < a.toNat + 4 ∧ a.toNat < address.toNat + w.bytes) :
    address.toNat / 16 = a.toNat / 16 := by
  cases w <;> simp only [Width.bytes] at h haddress <;> omega

/-- An access of a width at an address lies in the word at `a` or contains it. -/
def MeetsWord (w : Width) (address a : UInt32) : Prop :=
  a.toNat ≤ address.toNat ∧ address.toNat + w.bytes ≤ a.toNat + 4 ∨
    address.toNat ≤ a.toNat ∧ a.toNat + 4 ≤ address.toNat + w.bytes

theorem MeetsWord.overlap {w : Width} {address a : UInt32} (h : MeetsWord w address a) :
    address.toNat < a.toNat + 4 ∧ a.toNat < address.toNat + w.bytes := by
  have hpos : 0 < w.bytes := by cases w <;> decide
  unfold MeetsWord at h
  omega

/-! ## Accesses that insist on an answer -/

namespace Bus

variable {w : Width} {b : Bus} {a : UInt32} {unit : UnitId}

theorem tryRead_of_route {r : Reply Bank w.Value} (hroute : b.route a = .device unit)
    (hr : b.devices.read w unit a = .ok r) :
    b.tryRead w a = .ok (.answered
      ⟨r.value, { b with devices := r.device }, r.notes ++ [deviceReadNote a]⟩) := by
  simp only [tryRead, hroute, readRoute, hr]
  rfl

theorem tryWrite_of_route {value : w.Value} {r : Reply Bank Unit}
    (hroute : b.route a = .device unit) (hr : b.devices.write w unit a value = .ok r) :
    b.tryWrite w a value = .ok (.answered
      ⟨(), { b with devices := r.device }, deviceWriteNote a :: r.notes⟩) := by
  simp only [tryWrite, hroute, writeRoute, hr]
  rfl

theorem tryRead_of_unmapped (hroute : b.route a = .unmapped) :
    b.tryRead w a = .ok (.unmapped a b) := by
  simp only [tryRead, hroute]

theorem tryWrite_of_unmapped (value : w.Value) (hroute : b.route a = .unmapped) :
    b.tryWrite w a value = .ok (.unmapped a b) := by
  simp only [tryWrite, hroute]

end Bus

end R5900
