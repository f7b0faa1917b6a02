import R5900.Proofs.Action

/-!
# Word reads that change nothing

Reading a word changes a device in one case only: the memory controller hub counts the devices that
it reports, and every report is the same word (`Rdram.report`). So a word read that answers anything
else leaves the bus as it was (`Machine.bus_of_read`), and gives the same word when it is repeated
(`Machine.read_congr`).
-/

namespace R5900

/-- The word that the memory controller hub answers with for each device that it reports. -/
def Rdram.report : UInt32 := 0x1F

/-! ## Devices -/

namespace Peripheral

/-- A device that a word read leaves as it was, unless it answers like the memory controller hub
that reports a device. -/
class ReadsQuietly (δ : Type) [Peripheral δ] : Prop where
  device_readWord : ∀ (d : δ) (address : UInt32),
    (readWord d address).value ≠ Rdram.report → (readWord d address).device = d

instance : ReadsQuietly Intc where
  device_readWord d address _ := by
    show (Intc.readWord d address).device = d
    unfold Intc.readWord
    split
    · rfl
    · split <;> rfl

instance : ReadsQuietly Timer where
  device_readWord d address _ := by
    show (Timer.readWord d address).device = d
    unfold Timer.readWord
    split
    · rfl
    · dsimp only
      split
      case h_4 => split <;> rfl
      all_goals rfl

instance : ReadsQuietly Dmac where
  device_readWord d address _ := by
    show (Dmac.readWord d address).device = d
    unfold Dmac.readWord
    split <;> split <;> rfl

instance : ReadsQuietly Gs where
  device_readWord d address _ := by
    show (Gs.readDouble d (Gs.doubleAddress address)).device = d
    unfold Gs.readDouble
    split <;> rfl

instance : ReadsQuietly Sif where
  device_readWord d address _ := by
    show (Sif.readWord d address).device = d
    unfold Sif.readWord
    split <;> rfl

instance : ReadsQuietly PassiveRegisters := ⟨fun _ _ _ => rfl⟩

instance : ReadsQuietly Rdram where
  device_readWord d address h := by
    change (Rdram.readWord d address).value ≠ Rdram.report at h
    show (Rdram.readWord d address).device = d
    generalize hr : Rdram.readWord d address = r at h ⊢
    unfold Rdram.readWord at hr
    split at hr
    · rw [← hr]
    · split at hr
      · split at hr
        · rw [← hr]
        · split at hr
          · split at hr
            -- the one read that changes the device
            · rw [← hr] at h
              exact absurd rfl h
            · rw [← hr]
          all_goals rw [← hr]
      · rw [← hr]

end Peripheral

open Peripheral (ReadsQuietly)

/-- An answer that carries over a word read leaves what it is put into as it was. -/
theorem Device.device_of_answer {δ : Type} [Peripheral δ] [ReadsQuietly δ] {kind : δ → Device}
    {d : δ} {address : UInt32} {r : Reply Device UInt32}
    (h : answer kind (Peripheral.read .word d address) = .ok r) (hvalue : r.value ≠ Rdram.report) :
    r.device = kind d := by
  cases h
  exact congrArg kind (ReadsQuietly.device_readWord d address hvalue)

theorem Device.device_of_read {device : Device} {address : UInt32} {r : Reply Device UInt32}
    (h : device.read .word address = .ok r) (hvalue : r.value ≠ Rdram.report) :
    r.device = device := by
  cases device <;> exact device_of_answer h hvalue

namespace Bank

theorem device_of_answer {δ : Type} [Peripheral δ] [ReadsQuietly δ] {put : δ → Bank} {d : δ}
    {address : UInt32} {r : Reply Bank UInt32}
    (h : answer put (Peripheral.read .word d address) = .ok r) (hvalue : r.value ≠ Rdram.report) :
    r.device = put d := by
  cases h
  exact congrArg put (ReadsQuietly.device_readWord d address hvalue)

/-- A word read from any unit of a bank leaves the bank as it was. -/
theorem device_of_read {b : Bank} {unit : UnitId} {address : UInt32} {r : Reply Bank UInt32}
    (h : b.read .word unit address = .ok r) (hvalue : r.value ≠ Rdram.report) : r.device = b := by
  cases unit <;> simp only [read] at h
  case attached i =>
    split at h
    · rename_i device hdevice
      obtain ⟨r', hr, hput⟩ := exists_of_answer_eq_ok h
      have hvalue' : r'.value ≠ Rdram.report := by
        rw [hr] at h
        cases h
        exact hvalue
      obtain ⟨hi, rfl⟩ := Array.getElem?_eq_some_iff.1 hdevice
      rw [hput, Device.device_of_read hr hvalue', Array.setIfInBounds_def, dif_pos hi,
        Array.set_getElem_self]
    · cases h
      rfl
  all_goals exact device_of_answer h hvalue

end Bank

/-! ## The bus -/

/-- A word read on the bus leaves the bus as it was. -/
theorem Bus.bus_of_read {b : Bus} {address : UInt32} {r : BusReply UInt32}
    (h : b.read .word address = .ok r) (hvalue : r.value ≠ Rdram.report) : r.bus = b := by
  rcases exists_of_read h with hbus | ⟨unit, r', hroute, hr, hbus⟩
  · exact hbus
  · have hvalue' : r'.value = r.value := by
      simp only [read, hroute, readRoute, hr] at h
      cases h
      rfl
    rw [hbus, Bank.device_of_read hr (hvalue' ▸ hvalue)]

namespace Machine

/-- A word read at a virtual address leaves the bus as it was. -/
theorem bus_of_read {m m' : Machine} {a value : UInt32}
    (h : (Machine.read .word a).run m = .done value m') (hvalue : value ≠ Rdram.report) :
    m'.bus = m.bus := by
  obtain ⟨core, bus, journal⟩ := m
  simp only [Exec.run, Machine.read] at h
  split at h
  · split at h <;> cases h
    rfl
  · split at h
    · rename_i r hr
      cases h
      exact Bus.bus_of_read hr hvalue
    · cases h

/-- What a read gives depends on the scratchpad and the bus only. -/
theorem read_congr {w : Width} {a : UInt32} {m m' n : Machine} {value : w.Value}
    (h : (Machine.read w a).run m = .done value m')
    (hscratchpad : n.core.scratchpad = m.core.scratchpad) (hbus : n.bus = m.bus) :
    ∃ n', (Machine.read w a).run n = .done value n' ∧ n'.bus = m'.bus := by
  obtain ⟨core, bus, journal⟩ := m
  obtain ⟨core', bus', journal'⟩ := n
  obtain rfl : bus' = bus := hbus
  simp only [Exec.run, Machine.read] at h ⊢
  split at h
  · rename_i offset hloc
    split at h
    · rename_i v hload
      cases h
      rw [show core'.scratchpad = core.scratchpad from hscratchpad, hload]
      exact ⟨_, rfl, rfl⟩
    · cases h
  · split at h <;> cases h
    exact ⟨_, rfl, rfl⟩

end Machine

end R5900
