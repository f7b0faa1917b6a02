import R5900.Machine
import R5900.Proofs.Bus.Access
import R5900.Proofs.Device.Intc

/-!
# The interrupt controller on the bus

Of all accesses on the bus, only writes whose route leads to the interrupt controller change it. A
`MemoryWrite` is a write as the processor makes it, at a virtual address;
`Machine.intcWrites` are the words of it that reach the controller (`Machine.intc_of_write`).
-/

namespace R5900

namespace Bank

theorem intc_read {w : Width} {b : Bank} {unit : UnitId} {address : UInt32}
    {r : Reply Bank w.Value} (h : b.read w unit address = .ok r) : r.device.intc = b.intc := by
  by_cases hunit : unit = .intc
  · subst hunit
    simp only [read] at h
    obtain ⟨r', hr, hd⟩ := exists_of_answer_eq_ok h
    rw [hd]
    exact Intc.device_read hr
  · exact (sameBut_of_read h).intc hunit

theorem intc_write {w : Width} {b : Bank} {unit : UnitId} {address : UInt32} {value : w.Value}
    {r : Reply Bank Unit} (h : b.write w unit address value = .ok r) :
    r.device.intc =
      if unit = .intc then b.intc.writeWords (Intc.wordWrites w address value) else b.intc := by
  split
  · rename_i hunit
    subst hunit
    simp only [write] at h
    obtain ⟨r', hr, hd⟩ := exists_of_answer_eq_ok h
    rw [hd]
    exact Intc.device_write hr
  · rename_i hunit
    exact (sameBut_of_write h).intc hunit

end Bank

namespace Bus

/-- A read on the bus leaves the interrupt controller and the map as they are. -/
theorem intc_read {w : Width} {b : Bus} {a : UInt32} {r : BusReply w.Value}
    (h : b.read w a = .ok r) : r.bus.devices.intc = b.devices.intc ∧ r.bus.map = b.map := by
  rcases exists_of_read h with hbus | ⟨unit, r', -, hr, hbus⟩ <;> rw [hbus]
  · exact ⟨rfl, rfl⟩
  · exact ⟨Bank.intc_read hr, rfl⟩

/-- A write on the bus changes the interrupt controller exactly if its route leads there. -/
theorem intc_write {w : Width} {b : Bus} {a : UInt32} {value : w.Value} {r : BusReply Unit}
    (h : b.write w a value = .ok r) : r.bus.devices.intc =
      if b.route a = .device .intc then b.devices.intc.writeWords (Intc.wordWrites w a value)
      else b.devices.intc := by
  rcases exists_of_write h with ⟨hroute, main, iop, hbus⟩ | ⟨unit, r', hroute, hr, hbus⟩ <;>
    rw [hbus]
  · rw [if_neg (hroute .intc)]
  · simp only [hroute, Route.device.injEq]
    exact Bank.intc_write hr

/-- Who answers depends on the map only. -/
theorem route_of_map_eq {b b' : Bus} (h : b'.map = b.map) (a : UInt32) :
    b'.route a = b.route a := by
  unfold route
  rw [h]

end Bus

/-- A write at a virtual address. -/
structure MemoryWrite where
  width : Width
  address : UInt32
  value : width.Value

namespace Machine

/-- The interrupt controller of a machine. -/
def intc (m : Machine) : Intc := m.bus.devices.intc

/-- The words of a write that reach the interrupt controller, with their addresses. -/
def intcWrites (m : Machine) (write : MemoryWrite) : List (UInt32 × UInt32) :=
  match Location.ofVirtual write.address with
  | .scratchpad _ => []
  | .bus address =>
    if m.bus.route address = .device .intc then
      Intc.wordWrites write.width address write.value
    else []

theorem intcWrites_of_map_eq {m m' : Machine} (h : m'.bus.map = m.bus.map) (write : MemoryWrite) :
    m'.intcWrites write = m.intcWrites write := by
  simp only [intcWrites, Bus.route_of_map_eq h]

/-- A read leaves the core, the interrupt controller and the map of the bus as they are. -/
theorem intc_of_read {w : Width} {a : UInt32} {m m' : Machine} {value : w.Value}
    (h : (Machine.read w a).run m = .done value m') :
    m'.core = m.core ∧ m'.intc = m.intc ∧ m'.bus.map = m.bus.map := by
  obtain ⟨core, bus, journal⟩ := m
  simp only [Exec.run, Machine.read] at h
  split at h
  · split at h <;> cases h
    exact ⟨rfl, rfl, rfl⟩
  · rename_i address _
    cases hr : bus.read w address with
    | error fault => rw [hr] at h; cases h
    | ok r =>
      rw [hr] at h
      cases h
      exact ⟨rfl, Bus.intc_read hr⟩

/-- A write changes the interrupt controller by the words that reach it. -/
theorem intc_of_write {w : Width} {a : UInt32} {value : w.Value} {m m' : Machine}
    (h : (Machine.write w a value).run m = .done () m') :
    m'.intc = m.intc.writeWords (m.intcWrites ⟨w, a, value⟩) := by
  obtain ⟨core, bus, journal⟩ := m
  simp only [Exec.run, Machine.write] at h
  simp only [intcWrites]
  cases hloc : Location.ofVirtual a with
  | scratchpad offset =>
    rw [hloc] at h
    dsimp only at h
    split at h <;> cases h
    rfl
  | bus address =>
    rw [hloc] at h
    dsimp only at h ⊢
    cases hr : bus.write w address value with
    | error fault => rw [hr] at h; cases h
    | ok r =>
      rw [hr] at h
      cases h
      refine (Bus.intc_write hr).trans ?_
      split <;> rfl

end Machine

end R5900
