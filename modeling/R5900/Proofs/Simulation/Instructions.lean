import R5900.Proofs.Execute.Interrupt
import R5900.Proofs.Simulation.Run

/-!
# The instructions of a run

Instruction `i` of a run begins after `i` cycles, once the events that are due then are delivered
(`Simulation.begins`). `Simulation.Instructions` names the machines before and after every
instruction; between an instruction and the next one there are the bus cycle that may fall on its
end, the events and the refreshes of the interrupt line (`Simulation.Instructions.exists_between`).

In between, the interrupt controller gains status bits and loses none
(`Simulation.Instructions.extends_next`), and the interrupt line is brought up to date
(`Simulation.Instructions.lineFresh`).
-/

namespace R5900

namespace Machine

/-! ## The interrupt line -/

/-- The line of the interrupt controller is latched exactly if a status bit is let through. -/
def LineFresh (m : Machine) : Prop :=
  m.core.control.latches .int0 = true ↔ m.intc.status &&& m.intc.mask ≠ 0

theorem lineFresh_iff (m : Machine) :
    m.LineFresh ↔ m.core.control.latches .int0 = m.intc.pending := by
  rw [LineFresh, ← bne_iff_ne]
  exact Bool.eq_iff_iff.symm

theorem lineFresh_refreshLine (m : Machine) : m.refreshLine.LineFresh := by
  rw [lineFresh_iff, intc, bus_refreshLine]
  cases h : m.bus.devices.intc.pending with
  | true =>
    rw [refreshLine, if_pos h]
    exact SystemControl.latches_request_self ..
  | false =>
    rw [refreshLine, h]
    exact SystemControl.latches_release_self ..

@[simp] theorem intc_refreshLine (m : Machine) : m.refreshLine.intc = m.intc :=
  congrArg (·.devices.intc) m.bus_refreshLine

theorem lineFresh_deliverAll {m : Machine} (hm : m.LineFresh) (events : List PendingEvent)
    (now : UInt64) : (m.deliverAll events now).LineFresh := by
  induction events generalizing m with
  | nil => exact hm
  | cons e events ih => exact ih (lineFresh_refreshLine _)

/-! ## Sources -/

theorem extends_raiseSource (m : Machine) (source : InterruptSource) :
    m.intc.Extends (m.raiseSource source).intc :=
  Intc.extends_raise m.intc source

/-- Latch the sources of those timers of a list whose bits are set. -/
def raiseEach (raised : UInt8) (timers : List Nat) (m : Machine) : Machine :=
  timers.foldl
    (fun m i =>
      if raised &&& (1 <<< UInt8.ofNat i) != 0 then m.raiseSource (.timer i) else m) m

theorem raiseTimers_eq (m : Machine) (raised : UInt8) :
    m.raiseTimers raised = m.raiseEach raised (List.range 4) :=
  rfl

theorem raiseEach_cons (raised : UInt8) (i : Nat) (timers : List Nat) (m : Machine) :
    m.raiseEach raised (i :: timers) =
      (if raised &&& (1 <<< UInt8.ofNat i) != 0 then m.raiseSource (.timer i)
        else m).raiseEach raised timers :=
  rfl

theorem raiseEach_zero (timers : List Nat) (m : Machine) : m.raiseEach 0 timers = m := by
  induction timers with
  | nil => rfl
  | cons i timers ih =>
    have hnone : ((0 : UInt8) &&& 1 <<< UInt8.ofNat i != 0) = false := by
      rw [UInt8.zero_and]
      rfl
    rw [raiseEach_cons, hnone]
    exact ih

theorem extends_raiseEach (raised : UInt8) (timers : List Nat) (m : Machine) :
    m.intc.Extends (m.raiseEach raised timers).intc := by
  induction timers generalizing m with
  | nil => exact .refl _
  | cons i timers ih =>
    rw [raiseEach_cons]
    refine Intc.Extends.trans ?_ (ih _)
    split
    · exact m.extends_raiseSource _
    · exact .refl _

/-- A bus cycle steps the timers and latches the sources that they raise. -/
theorem exists_of_busCycle {m m' : Machine} (h : m.busCycle = .ok m') :
    ∃ timer, m.bus.devices.timer.step = .ok timer ∧
      m' = (m.setTimer timer.take.2).raiseTimers timer.raised := by
  obtain ⟨timer, hstep, h⟩ := exists_of_bind_eq_ok h
  refine ⟨timer, hstep, ?_⟩
  cases h
  show (if timer.raised = 0 then m.setTimer timer.take.2 else _) = _
  split
  · rename_i hzero
    rw [hzero, raiseTimers_eq, raiseEach_zero]
  · rfl

theorem extends_busCycle {m m' : Machine} (h : m.busCycle = .ok m') : m.intc.Extends m'.intc := by
  obtain ⟨timer, -, rfl⟩ := exists_of_busCycle h
  exact extends_raiseEach timer.raised _ (m.setTimer timer.take.2)

theorem extends_deliverEvent (m : Machine) (event : VideoEvent) (now : UInt64) :
    m.intc.Extends (m.deliverEvent event now).intc := by
  cases event with
  | vblankStart => exact Intc.extends_raise m.intc .vblankStart
  | vblankEnd => exact Intc.extends_raise m.intc .vblankEnd
  | gsVblank =>
    simp only [deliverEvent]
    split
    · exact Intc.extends_raise m.intc .gs
    · exact .refl _

theorem extends_deliverAll (m : Machine) (events : List PendingEvent) (now : UInt64) :
    m.intc.Extends (m.deliverAll events now).intc := by
  induction events generalizing m with
  | nil => exact .refl _
  | cons e events ih =>
    rw [deliverAll_cons]
    refine (m.extends_deliverEvent e.event now).trans ?_
    rw [← intc_refreshLine]
    exact ih _

/-- What a cycle does that does not fault: a step, the bus cycle if one falls on it, and a refresh
of the interrupt line. -/
theorem exists_of_cycle {divider now : UInt64} {m m' : Machine}
    (h : m.cycle divider now = .ok m') : ∃ m₁ m₂, m.step = .ok m₁ ∧
      (now % divider = 0 → m₁.busCycle = .ok m₂) ∧ (now % divider ≠ 0 → m₂ = m₁) ∧
      m' = m₂.refreshLine := by
  obtain ⟨m₁, hstep, h⟩ := exists_of_bind_eq_ok h
  dsimp only at h
  split at h
  · rename_i hmultiple
    obtain ⟨m₂, hbus, h⟩ := exists_of_bind_eq_ok h
    cases h
    exact ⟨m₁, m₂, hstep, fun _ => hbus, fun hne => absurd hmultiple hne, rfl⟩
  · rename_i hmultiple
    cases h
    exact ⟨m₁, m₁, hstep, fun heq => absurd heq hmultiple, fun _ => rfl, rfl⟩

end Machine

namespace Simulation

/-! ## The instructions of a run -/

/-- The machine in which instruction `i` of a run begins: `i` cycles have passed, and the events
that are due then are delivered. -/
def begins (s : Simulation) (i : Nat) : Except Fault Machine := do
  let sᵢ ← driverCycles i s.start
  let (events, _) ← sᵢ.schedule.dueEvents
  return sᵢ.machine.deliverAll events sᵢ.schedule.cycle

/-- The first `n` instructions of a run: instruction `i` begins in the machine `b i` and ends in the
machine `e i`. -/
structure Instructions (s : Simulation) (n : Nat) (b e : Nat → Machine) : Prop where
  begins : ∀ i < n, s.begins i = .ok (b i)
  step : ∀ i < n, (b i).step = .ok (e i)

/-- A bus cycle falls on the end of instruction `i` of a run. -/
def BusCycleAt (s : Simulation) (i : Nat) : Prop :=
  (s.schedule.cycle.toNat + i + 1) % (divider s.config).toNat = 0

theorem lt_of_run {s s' : Simulation} {n : UInt64} (h : s.run n = .ok s') :
    s.schedule.cycle.toNat + n.toNat < 2 ^ 64 := by
  obtain ⟨machine, schedule, config⟩ := s
  obtain ⟨stop, hstop, -⟩ := exists_of_bind_eq_ok h
  have hsum := Checked.toNat_of_add64 hstop
  have hlt := stop.toNat_lt
  show schedule.cycle.toNat + n.toNat < 2 ^ 64
  omega

theorem driverCycles_of_run {s s' : Simulation} {n : UInt64} (h : s.run n = .ok s') :
    driverCycles n.toNat s.start = .ok s' :=
  (run_eq_driverCycles (lt_of_run h)).symm.trans h

theorem config_of_driverCycles {n : Nat} {s s' : Simulation} (h : driverCycles n s = .ok s') :
    s'.config = s.config := by
  induction n generalizing s with
  | zero =>
    cases h
    rfl
  | succ n ih =>
    obtain ⟨machine, schedule, config⟩ := s
    obtain ⟨s₁, hcycle, h⟩ := exists_of_bind_eq_ok h
    obtain ⟨events, rest, rest', m', -, -, -, rfl⟩ := exists_of_driverCycle hcycle
    have hconfig := ih h
    exact hconfig

/-- A driver cycle is an instruction, and what comes after it up to the next one. -/
theorem exists_of_driverCycles_succ {s sᵢ s' : Simulation} {i : Nat}
    (hᵢ : driverCycles i s.start = .ok sᵢ) (h : sᵢ.driverCycle = .ok s') :
    ∃ m m₁ m₂, s.begins i = .ok m ∧ m.step = .ok m₁ ∧
      (s.BusCycleAt i → m₁.busCycle = .ok m₂) ∧ (¬s.BusCycleAt i → m₂ = m₁) ∧
      s'.machine = m₂.refreshLine := by
  have hcycle := cycle_of_driverCycles hᵢ
  have hconfig := config_of_driverCycles hᵢ
  obtain ⟨machine, schedule, config⟩ := sᵢ
  obtain ⟨events, rest, rest', m', hevents, htick, hmachine, rfl⟩ := exists_of_driverCycle h
  obtain ⟨m₁, m₂, hstep, hbus, hnone, hend⟩ := Machine.exists_of_cycle hmachine
  have hnow : s.BusCycleAt i ↔ rest'.cycle % divider config = 0 := by
    obtain ⟨c, hc, htick⟩ := exists_of_bind_eq_ok htick
    cases htick
    have hrest : rest.cycle = schedule.cycle := Schedule.cycle_of_dueEvents hevents
    have hsum : c.toNat = s.start.schedule.cycle.toNat + i + 1 := by
      rw [Checked.toNat_of_add64 hc, hrest]
      exact congrArg (· + 1) hcycle
    rw [BusCycleAt, ← UInt64.toNat_inj, UInt64.toNat_mod]
    show (s.start.schedule.cycle.toNat + i + 1) % (divider s.start.config).toNat = 0 ↔ _
    rw [← hsum, ← hconfig]
    rfl
  refine ⟨_, m₁, m₂, ?_, hstep, fun h => hbus (hnow.1 h), fun h => hnone (fun h' => h (hnow.2 h')),
    hend⟩
  rw [begins, hᵢ]
  simp only [bind, Except.bind, hevents]
  rfl

/-- A run has its instructions. -/
theorem exists_instructions {s s' : Simulation} {n : UInt64} (h : s.run n = .ok s') :
    ∃ b e, s.Instructions n.toNat b e := by
  have hcycles := driverCycles_of_run h
  have hall : ∀ i, ∃ m m₁, i < n.toNat → s.begins i = .ok m ∧ m.step = .ok m₁ := by
    intro i
    by_cases hi : i < n.toNat
    · obtain ⟨sᵢ, s₁, hᵢ, hcycle⟩ := exists_of_driverCycles hcycles hi
      obtain ⟨m, m₁, -, hbegins, hstep, -⟩ := exists_of_driverCycles_succ hᵢ hcycle
      exact ⟨m, m₁, fun _ => ⟨hbegins, hstep⟩⟩
    · -- after the run there is no instruction, and any machine will do
      exact ⟨s.machine, s.machine, fun h => absurd h hi⟩
  choose b e hbe using hall
  exact ⟨b, e, fun i hi => (hbe i hi).1, fun i hi => (hbe i hi).2⟩

/-- With bounded timers, a run that leaves a frame after the last cycle does not fault. -/
theorem exists_run_of_bounded {s : Simulation} {n : UInt64} (hm : s.machine.Bounded)
    (h : s.schedule.cycle.toNat + n.toNat + Schedule.frame.toNat < 2 ^ 64) :
    ∃ s', s.run n = .ok s' := by
  have hstop : s.schedule.cycle.toNat + n.toNat < 2 ^ 64 := by omega
  obtain ⟨s', hcycles, -⟩ := driverCycles_eq_ok (s := s.start) hm
    (Schedule.fits_of_add_frame_le (Nat.le_of_lt h)) hstop
  exact ⟨s', (run_eq_driverCycles hstop).trans hcycles⟩

/-- The machine in which an instruction begins is the one after the cycles before it, with events
delivered. -/
theorem exists_of_begins {s : Simulation} {i : Nat} {m : Machine} (h : s.begins i = .ok m) :
    ∃ sᵢ events, driverCycles i s.start = .ok sᵢ ∧
      m = sᵢ.machine.deliverAll events sᵢ.schedule.cycle := by
  obtain ⟨sᵢ, hᵢ, h⟩ := exists_of_bind_eq_ok h
  obtain ⟨⟨events, rest⟩, -, h⟩ := exists_of_bind_eq_ok h
  cases h
  exact ⟨sᵢ, events, hᵢ, rfl⟩

/-- What falls on the end of an instruction takes no status bit. -/
theorem extends_of_busCycleAt {s : Simulation} {i : Nat} {m m' : Machine}
    (hbus : s.BusCycleAt i → m.busCycle = .ok m') (hnone : ¬s.BusCycleAt i → m' = m) :
    m.intc.Extends m'.intc := by
  by_cases h : s.BusCycleAt i
  · exact Machine.extends_busCycle (hbus h)
  · rw [hnone h]
    exact .refl _

namespace Instructions

variable {s : Simulation} {n : Nat} {b e : Nat → Machine} (hrun : s.Instructions n b e)
include hrun

/-- After an instruction there are the bus cycle that may fall on its end, and a refresh of the
interrupt line. -/
theorem exists_after {i : Nat} (hi : i < n) {s₁ : Simulation}
    (h₁ : driverCycles (i + 1) s.start = .ok s₁) :
    ∃ m, (s.BusCycleAt i → (e i).busCycle = .ok m) ∧ (¬s.BusCycleAt i → m = e i) ∧
      s₁.machine = m.refreshLine := by
  rw [driverCycles_add] at h₁
  obtain ⟨sᵢ, hᵢ, h₁⟩ := exists_of_bind_eq_ok h₁
  obtain ⟨s₁', hcycle, h₁⟩ := exists_of_bind_eq_ok h₁
  cases h₁
  obtain ⟨m, m₁, m₂, hbegins, hstep, hbus, hnone, hend⟩ := exists_of_driverCycles_succ hᵢ hcycle
  rw [hrun.begins i hi] at hbegins
  cases hbegins
  rw [hrun.step i hi] at hstep
  cases hstep
  exact ⟨m₂, hbus, hnone, hend⟩

/-- Between an instruction and the next one there are the bus cycle that may fall on its end, a
refresh of the interrupt line, and the events that are due. -/
theorem exists_between {i : Nat} (hi : i + 1 < n) :
    ∃ m events now, (s.BusCycleAt i → (e i).busCycle = .ok m) ∧ (¬s.BusCycleAt i → m = e i) ∧
      b (i + 1) = m.refreshLine.deliverAll events now := by
  obtain ⟨s₁, events, h₁, hnext⟩ := exists_of_begins (hrun.begins (i + 1) hi)
  obtain ⟨m, hbus, hnone, hend⟩ := hrun.exists_after (by omega) h₁
  rw [hend] at hnext
  exact ⟨m, events, s₁.schedule.cycle, hbus, hnone, hnext⟩

/-- Whenever an instruction after the first one begins, the interrupt line is up to date; and when
the first one does, if it was before the run. -/
theorem lineFresh {i : Nat} (hi : i < n) (h : 0 < i ∨ s.machine.LineFresh) : (b i).LineFresh := by
  cases i with
  | zero =>
    obtain ⟨s₀, events, h₀, hm⟩ := exists_of_begins (hrun.begins 0 hi)
    cases h₀
    rw [hm]
    refine Machine.lineFresh_deliverAll ?_ _ _
    exact h.resolve_left (Nat.lt_irrefl 0)
  | succ i =>
    obtain ⟨m, events, now, -, -, hnext⟩ := hrun.exists_between hi
    rw [hnext]
    exact Machine.lineFresh_deliverAll m.lineFresh_refreshLine _ _

/-- What a bus cycle leaves in the interrupt controller is there at the end of the cycle. -/
theorem intc_after {i : Nat} (hi : i < n) {s₁ : Simulation}
    (h₁ : driverCycles (i + 1) s.start = .ok s₁) (hbus : s.BusCycleAt i) {m : Machine}
    (h : (e i).busCycle = .ok m) : s₁.machine.intc = m.intc := by
  obtain ⟨m', hcycle, -, hend⟩ := hrun.exists_after hi h₁
  rw [hcycle hbus] at h
  cases h
  rw [hend, Machine.intc_refreshLine]

/-- After a bus cycle, the interrupt controller loses no status bit before the next instruction. -/
theorem extends_of_busCycle {i : Nat} (hi : i + 1 < n) (hbus : s.BusCycleAt i) {m : Machine}
    (h : (e i).busCycle = .ok m) : m.intc.Extends (b (i + 1)).intc := by
  obtain ⟨s₁, events, h₁, hnext⟩ := exists_of_begins (hrun.begins (i + 1) hi)
  rw [hnext, ← hrun.intc_after (by omega) h₁ hbus h]
  exact Machine.extends_deliverAll _ _ _

/-- Between two instructions, the interrupt controller loses no status bit. -/
theorem extends_next {i : Nat} (hi : i + 1 < n) : (e i).intc.Extends (b (i + 1)).intc := by
  obtain ⟨m, events, now, hbus, hnone, hnext⟩ := hrun.exists_between hi
  refine (extends_of_busCycleAt hbus hnone).trans ?_
  rw [hnext, ← m.intc_refreshLine]
  exact Machine.extends_deliverAll _ _ _

/-- Before the first instruction, the interrupt controller loses no status bit. -/
theorem extends_first (hn : 0 < n) : s.machine.intc.Extends (b 0).intc := by
  obtain ⟨s₀, events, h₀, hm⟩ := exists_of_begins (hrun.begins 0 hn)
  cases h₀
  rw [hm]
  exact Machine.extends_deliverAll s.start.machine events _

/-- After the last instruction, the interrupt controller loses no status bit. -/
theorem extends_last {i : Nat} (hi : i < n) {s₁ : Simulation}
    (h₁ : driverCycles (i + 1) s.start = .ok s₁) : (e i).intc.Extends s₁.machine.intc := by
  obtain ⟨m, hbus, hnone, hend⟩ := hrun.exists_after hi h₁
  rw [hend, Machine.intc_refreshLine]
  exact extends_of_busCycleAt hbus hnone

end Instructions

end Simulation

end R5900
