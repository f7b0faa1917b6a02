import R5900.Proofs.Device.Timer
import R5900.Proofs.Execute.Step
import R5900.Simulation

/-!
# Cycles of the machine

One cycle of the driven machine is a step of the processor, the bus cycle that may fall on it, and
a refresh of the interrupt line. On a machine whose timers are bounded, none of these faults, and
all of them leave the timers bounded (`Machine.cycle_bounded`). The interrupt line is up to date
after every cycle, so refreshing it once more changes nothing (`Machine.refreshLine_of_cycle`).
-/

namespace R5900

namespace Machine

/-- The timers on the bus are bounded. -/
def Bounded (m : Machine) : Prop := m.bus.devices.timer.Bounded

/-! ## The interrupt line -/

theorem or_or_self (x y : UInt32) : x ||| y ||| y = x ||| y := by
  rw [UInt32.or_assoc, UInt32.or_self]

theorem and_and_self (x y : UInt32) : x &&& y &&& y = x &&& y := by
  rw [UInt32.and_assoc, UInt32.and_self]

/-- Refreshing the interrupt line twice is refreshing it once. -/
theorem refreshLine_refreshLine (m : Machine) : m.refreshLine.refreshLine = m.refreshLine := by
  cases h : m.bus.devices.intc.pending with
  | true =>
    have hset : m.refreshLine = { m with core := m.core.request .int0 } := if_pos h
    rw [hset, refreshLine, if_pos h]
    simp only [Core.request, SystemControl.request, or_or_self]
  | false =>
    have hclear : m.refreshLine = { m with core := m.core.release .int0 } := by
      rw [refreshLine, h]
      rfl
    rw [hclear, refreshLine]
    simp only [h, Core.release, SystemControl.release, and_and_self]
    rfl

@[simp] theorem bus_refreshLine (m : Machine) : m.refreshLine.bus = m.bus := by
  unfold refreshLine
  split <;> rfl

theorem refreshLine_of_cycle {divider now : UInt64} {m m' : Machine}
    (h : m.cycle divider now = .ok m') : m'.refreshLine = m' := by
  obtain ⟨m₁, -, h⟩ := exists_of_bind_eq_ok h
  dsimp only at h
  split at h
  · obtain ⟨m₂, -, h⟩ := exists_of_bind_eq_ok h
    cases h
    exact m₂.refreshLine_refreshLine
  · cases h
    exact m₁.refreshLine_refreshLine

theorem refreshLine_of_cycles {divider : UInt64} {n : Nat} {now : UInt64} {m m' : Machine}
    (h : m.cycles divider (n + 1) now = .ok m') : m'.refreshLine = m' := by
  induction n generalizing now m with
  | zero =>
    obtain ⟨now', -, h⟩ := exists_of_bind_eq_ok h
    obtain ⟨m₁, hcycle, h⟩ := exists_of_bind_eq_ok h
    cases h
    exact refreshLine_of_cycle hcycle
  | succ n ih =>
    obtain ⟨now', -, h⟩ := exists_of_bind_eq_ok h
    obtain ⟨m₁, -, h⟩ := exists_of_bind_eq_ok h
    exact ih h

/-! ## What leaves the timers bounded -/

theorem bounded_raiseSource {m : Machine} (source : InterruptSource) (hm : m.Bounded) :
    (m.raiseSource source).Bounded :=
  hm

theorem bounded_raiseTimers {m : Machine} (raised : UInt8) (hm : m.Bounded) :
    (m.raiseTimers raised).Bounded := by
  unfold raiseTimers
  induction List.range 4 generalizing m with
  | nil => exact hm
  | cons i is ih =>
    rw [List.foldl_cons]
    apply ih
    split
    · exact bounded_raiseSource _ hm
    · exact hm

theorem bounded_refreshLine {m : Machine} (hm : m.Bounded) : m.refreshLine.Bounded := by
  rw [Bounded, bus_refreshLine]
  exact hm

theorem bounded_deliverEvent {m : Machine} (event : VideoEvent) (now : UInt64) (hm : m.Bounded) :
    (m.deliverEvent event now).Bounded := by
  cases event with
  | vblankStart => exact hm
  | vblankEnd => exact hm
  | gsVblank =>
    simp only [deliverEvent]
    split <;> exact hm

/-! ## Cycles that do not fault -/

/-- A step does not fault, and leaves bounded timers bounded. -/
theorem step_bounded {m : Machine} (hm : m.Bounded) : ∃ m', m.step = .ok m' ∧ m'.Bounded := by
  obtain ⟨m', hstep, hbus⟩ := m.step_eq_ok
  exact ⟨m', hstep, hbus.timer Timer.keeps_bounded hm⟩

/-- A bus cycle on bounded timers does not fault, and leaves them bounded. -/
theorem busCycle_bounded {m : Machine} (hm : m.Bounded) :
    ∃ m', m.busCycle = .ok m' ∧ m'.Bounded := by
  obtain ⟨timer, hstep, htimer⟩ := Timer.step_eq_ok hm
  have hset : (m.setTimer timer.take.2).Bounded := htimer
  simp only [busCycle, hstep]
  by_cases hraised : timer.take.1 = 0
  · exact ⟨m.setTimer timer.take.2, congrArg Except.ok (if_pos hraised), hset⟩
  · exact ⟨_, congrArg Except.ok (if_neg hraised), bounded_raiseTimers _ hset⟩

/-- A cycle on a machine with bounded timers does not fault, and leaves them bounded. -/
theorem cycle_bounded (divider now : UInt64) {m : Machine} (hm : m.Bounded) :
    ∃ m', m.cycle divider now = .ok m' ∧ m'.Bounded := by
  obtain ⟨m₁, hstep, hm₁⟩ := step_bounded hm
  simp only [cycle, hstep, bind, Except.bind]
  by_cases hmultiple : now % divider = 0
  · obtain ⟨m₂, hbusCycle, hm₂⟩ := busCycle_bounded hm₁
    rw [if_pos hmultiple, hbusCycle]
    exact ⟨_, rfl, bounded_refreshLine hm₂⟩
  · rw [if_neg hmultiple]
    exact ⟨_, rfl, bounded_refreshLine hm₁⟩

end Machine

end R5900
