import R5900.Proofs.Execute.WellFormed
import R5900.Proofs.Simulation.Instructions
import R5900.Word.View

/-!
# Well-formed simulations

What holds of the standard machine between runs, whatever program it runs. `Simulation.WellFormed`
collects it: what the processor, the devices and boot memory keep from step to step
(`Machine.WellFormed`), an interrupt line that has the level of the interrupt controller, and a
schedule in which every event is pending exactly once.

* `Simulation.wellFormed_driverCycle`: a cycle keeps a simulation well formed: the events that are
  due, the step of the processor, the bus cycle and the refresh of the line.
* `Simulation.runs_wellFormed`: so does every sequence of runs, from any contents of the memories
  and registers.
-/

namespace R5900

/-! ## The schedule -/

/-- Every event is pending exactly once, and the queue is kept earliest first. -/
structure Schedule.WellFormed (s : Schedule) : Prop where
  once : ∀ event, (s.queue.map PendingEvent.event).count event = 1
  ordered : s.Ordered

namespace Schedule

theorem wellFormed_initial : initial.WellFormed where
  once event := by cases event <;> decide
  ordered := ordered_initial

/-- Taking the due events keeps every event pending exactly once. -/
theorem wellFormed_dueEvents {s s' : Schedule} {events : List PendingEvent} (hs : s.WellFormed)
    (h : s.dueEvents = .ok (events, s')) : s'.WellFormed := by
  obtain ⟨-, hordered, -, -, hperm⟩ := dueEvents_spec h hs.ordered
  refine ⟨fun event => ?_, hordered⟩
  have hevents : (events.map PendingEvent.inNextFrame).map PendingEvent.event =
      events.map PendingEvent.event := by
    rw [List.map_map]
    exact List.map_congr_left fun e _ => e.event_inNextFrame
  -- the events that are taken occur on both sides of the permutation, there one frame later
  have hcount := (hperm.map PendingEvent.event).count_eq event
  rw [List.map_append, List.map_append, hevents, List.count_append, List.count_append] at hcount
  rw [← hs.once event]
  exact Nat.add_left_cancel hcount

end Schedule

/-! ## What changes the machine between steps -/

namespace Machine

variable {boot : Memory bootSize} {m : Machine}

/-- Refreshing the interrupt line keeps the machine well formed. -/
theorem wellFormed_refreshLine (hm : m.WellFormed boot) : m.refreshLine.WellFormed boot := by
  unfold refreshLine
  split
  · exact ⟨⟨hm.core.zero, hm.core.delaySlot,
      SystemControl.wellFormed_request hm.core.control (by decide)⟩, hm.mode, hm.bus⟩
  · exact ⟨⟨hm.core.zero, hm.core.delaySlot,
      SystemControl.wellFormed_release hm.core.control .int0⟩, hm.mode, hm.bus⟩

theorem wellFormed_report (hm : m.WellFormed boot) (n : Note) : (m.report n).WellFormed boot :=
  ⟨hm.core, hm.mode, hm.bus⟩

theorem wellFormed_raiseSource (hm : m.WellFormed boot) (source : InterruptSource) :
    (m.raiseSource source).WellFormed boot :=
  ⟨hm.core, hm.mode,
    { hm.bus.devices with intc := Intc.wellFormed_raise hm.bus.devices.intc source }, hm.bus.boot⟩

theorem wellFormed_raiseEach (hm : m.WellFormed boot) (raised : UInt8) (timers : List Nat) :
    (m.raiseEach raised timers).WellFormed boot := by
  induction timers generalizing m with
  | nil => exact hm
  | cons i timers ih =>
    rw [raiseEach_cons]
    split
    · exact ih (wellFormed_raiseSource hm _)
    · exact ih hm

/-- A bus cycle keeps the machine well formed: the interrupts that the timers raise are taken. -/
theorem wellFormed_busCycle {m' : Machine} (hm : m.WellFormed boot) (h : m.busCycle = .ok m') :
    m'.WellFormed boot := by
  obtain ⟨timer, hstep, rfl⟩ := exists_of_busCycle h
  have htimer := Timer.wellFormed_step hm.bus.devices.timer hstep
  have hset : (m.setTimer timer.take.2).WellFormed boot :=
    ⟨hm.core, hm.mode, { hm.bus.devices with timer := htimer }, hm.bus.boot⟩
  exact wellFormed_raiseEach hset timer.raised _

/-- A video event keeps the machine well formed. -/
theorem wellFormed_deliverEvent (hm : m.WellFormed boot) (event : VideoEvent) (now : UInt64) :
    (m.deliverEvent event now).WellFormed boot := by
  cases event with
  | vblankStart =>
    exact wellFormed_raiseSource (wellFormed_report (wellFormed_report hm _) _) .vblankStart
  | vblankEnd =>
    exact wellFormed_raiseSource (wellFormed_report (wellFormed_report hm _) _) .vblankEnd
  | gsVblank =>
    have hgs := Gs.wellFormed_vblank hm.bus.devices.gs
    simp only [deliverEvent]
    split
    · exact ⟨hm.core, hm.mode, { hm.bus.devices with
        intc := Intc.wellFormed_raise hm.bus.devices.intc .gs, gs := hgs }, hm.bus.boot⟩
    · exact ⟨hm.core, hm.mode, { hm.bus.devices with gs := hgs }, hm.bus.boot⟩

theorem wellFormed_deliverAll (hm : m.WellFormed boot) (events : List PendingEvent) (now : UInt64) :
    (m.deliverAll events now).WellFormed boot := by
  induction events generalizing m with
  | nil => exact hm
  | cons e events ih =>
    exact ih (wellFormed_refreshLine (wellFormed_deliverEvent hm e.event now))

/-- A cycle keeps the machine well formed, and brings the interrupt line up to date. -/
theorem wellFormed_cycle {divider now : UInt64} {m' : Machine} (hm : m.WellFormed boot)
    (h : m.cycle divider now = .ok m') : m'.WellFormed boot ∧ m'.LineFresh := by
  obtain ⟨m₁, m₂, hstep, hbus, hnone, rfl⟩ := exists_of_cycle h
  have hm₁ := wellFormed_step hm hstep
  have hm₂ : m₂.WellFormed boot := by
    by_cases hmultiple : now % divider = 0
    · exact wellFormed_busCycle hm₁ (hbus hmultiple)
    · rw [hnone hmultiple]
      exact hm₁
  exact ⟨wellFormed_refreshLine hm₂, m₂.lineFresh_refreshLine⟩

end Machine

/-! ## Runs -/

namespace Simulation

/-- The simulation is well formed: its machine is, with the image `boot` in boot memory, the
interrupt line has the level of the interrupt controller, and every event is pending exactly
once. -/
structure WellFormed (boot : Memory bootSize) (s : Simulation) : Prop where
  machine : s.machine.WellFormed boot
  line : s.machine.LineFresh
  schedule : s.schedule.WellFormed

variable {boot : Memory bootSize}

theorem wellFormed_driverCycle {s s' : Simulation} (hs : s.WellFormed boot)
    (h : s.driverCycle = .ok s') : s'.WellFormed boot := by
  obtain ⟨machine, schedule, config⟩ := s
  obtain ⟨events, rest, rest', m', hevents, htick, hcycle, rfl⟩ := exists_of_driverCycle h
  obtain ⟨hm', hline⟩ :=
    Machine.wellFormed_cycle (Machine.wellFormed_deliverAll hs.machine events _) hcycle
  have hrest := Schedule.wellFormed_dueEvents hs.schedule hevents
  obtain ⟨cycle, -, htick⟩ := exists_of_bind_eq_ok htick
  cases htick
  exact ⟨hm', hline, hrest.once, hrest.ordered⟩

theorem wellFormed_driverCycles {n : Nat} {s s' : Simulation} (hs : s.WellFormed boot)
    (h : driverCycles n s = .ok s') : s'.WellFormed boot := by
  induction n generalizing s with
  | zero =>
    cases h
    exact hs
  | succ n ih =>
    obtain ⟨s₁, hcycle, h⟩ := exists_of_bind_eq_ok h
    exact ih (wellFormed_driverCycle hs hcycle) h

/-- A run keeps a simulation well formed. -/
theorem wellFormed_run {s s' : Simulation} {n : UInt64} (hs : s.WellFormed boot)
    (h : s.run n = .ok s') : s'.WellFormed boot :=
  wellFormed_driverCycles (s := s.start)
    ⟨Machine.wellFormed_report hs.machine _, hs.line, hs.schedule⟩ (driverCycles_of_run h)

/-- Runs of the given numbers of cycles, one after the other. -/
def runs (s : Simulation) : List UInt64 → Except Fault Simulation
  | [] => .ok s
  | n :: counts => do (← s.run n).runs counts

theorem wellFormed_runs {s s' : Simulation} {counts : List UInt64} (hs : s.WellFormed boot)
    (h : s.runs counts = .ok s') : s'.WellFormed boot := by
  induction counts generalizing s with
  | nil =>
    cases h
    exact hs
  | cons n counts ih =>
    obtain ⟨s₁, hrun, h⟩ := exists_of_bind_eq_ok h
    exact ih (wellFormed_run hs hrun) h

/-- Runs of a well-formed simulation that leave a frame after the last cycle do not fault. -/
theorem exists_runs {s : Simulation} {counts : List UInt64} (hs : s.WellFormed boot)
    (h : s.schedule.cycle.toNat + (counts.map UInt64.toNat).sum + Schedule.frame.toNat < 2 ^ 64) :
    ∃ s', s.runs counts = .ok s' := by
  induction counts generalizing s with
  | nil => exact ⟨s, rfl⟩
  | cons n counts ih =>
    rw [List.map_cons, List.sum_cons] at h
    obtain ⟨s₁, hrun⟩ := exists_run_of_bounded hs.machine.bus.devices.timer.bounded
      (show s.schedule.cycle.toNat + n.toNat + Schedule.frame.toNat < 2 ^ 64 by omega)
    have hcycle : s₁.schedule.cycle.toNat = s.schedule.cycle.toNat + n.toNat :=
      cycle_of_driverCycles (s := s.start) (driverCycles_of_run hrun)
    obtain ⟨s', hruns⟩ := ih (wellFormed_run hs hrun) (by omega)
    exact ⟨s', by rw [runs, hrun]; exact hruns⟩

end Simulation

/-! ## The standard machine -/

/-- What the memories of a machine hold. -/
structure Contents where
  main : Memory mainSize
  boot : Memory bootSize
  iop : Memory iopSize
  scratchpad : Memory scratchpadSize

namespace Core

/-- Set registers through views, one after the other. -/
def setAll (c : Core) (values : List (Reg × View × Quad)) : Core :=
  values.foldl (fun c value => c.set value.1 (value.2.1.write (c.get value.1) value.2.2)) c

@[simp] theorem control_set (c : Core) (r : Reg) (value : Quad) :
    (c.set r value).control = c.control := by
  cases r with
  | gpr r => exact c.control_setQuad r value
  | lo => rfl
  | hi => rfl

@[simp] theorem mode_set (c : Core) (r : Reg) (value : Quad) : (c.set r value).mode = c.mode := by
  cases r with
  | gpr r =>
    show (c.setQuad r value).mode = c.mode
    unfold setQuad
    split <;> rfl
  | lo => rfl
  | hi => rfl

/-- Setting registers keeps the processor well formed and leaves control registers and mode
alone. -/
theorem wellFormed_setAll {c : Core} (hc : c.WellFormed) (values : List (Reg × View × Quad)) :
    (c.setAll values).WellFormed ∧ (c.setAll values).control = c.control ∧
      (c.setAll values).mode = c.mode := by
  induction values generalizing c with
  | nil => exact ⟨hc, rfl, rfl⟩
  | cons value values ih =>
    obtain ⟨hset, hcontrol, hmode⟩ :=
      ih (wellFormed_set hc value.1 (value.2.1.write (c.get value.1) value.2.2))
    exact ⟨hset, hcontrol.trans (control_set ..), hmode.trans (mode_set ..)⟩

end Core

namespace Simulation

/-- The standard machine with the given contents of the memories, after registers are set. -/
def prepared (config : Config) (threshold : Option Level) (contents : Contents)
    (values : List (Reg × View × Quad)) : Simulation :=
  let s := initial config threshold
  { s with
    machine :=
      { s.machine with
        core := { s.machine.core with scratchpad := contents.scratchpad }.setAll values
        bus := { s.machine.bus with
          main := contents.main, boot := contents.boot, iop := contents.iop } } }

theorem wellFormed_prepared (config : Config) (threshold : Option Level) (contents : Contents)
    (values : List (Reg × View × Quad)) :
    (prepared config threshold contents values).WellFormed contents.boot := by
  obtain ⟨core, hcore, hwell, hcontrol, hmode⟩ : ∃ core : Core,
      (prepared config threshold contents values).machine.core = core.setAll values ∧
        core.WellFormed ∧ core.control = .initial ∧ core.mode = .kernel := by
    refine ⟨_, rfl, ?_⟩
    cases hentry : config.entryPoint with
    | none =>
      simp only [initial, hentry]
      exact ⟨⟨Core.wellFormed_initial.zero, rfl, SystemControl.wellFormed_initial⟩, rfl, rfl⟩
    | some pc =>
      simp only [initial, hentry]
      exact ⟨⟨Core.wellFormed_initial.zero, rfl, SystemControl.wellFormed_initial⟩, rfl, rfl⟩
  obtain ⟨hset, hcontrol', hmode'⟩ := Core.wellFormed_setAll hwell values
  rw [hcontrol] at hcontrol'
  rw [hmode] at hmode'
  rw [← hcore] at hset hcontrol' hmode'
  refine ⟨⟨hset, ?_, Bank.wellFormed_initial, rfl⟩, ?_, Schedule.wellFormed_initial⟩
  · rw [hmode', hcontrol']
    decide
  · have hintc : (prepared config threshold contents values).machine.intc = .initial := rfl
    rw [Machine.LineFresh, hcontrol', hintc]
    decide

/-- **Runs of the standard machine keep it well formed.** Whatever the settings, the contents of the
memories and the registers, and however many cycles each run has, the machine is well formed after
every run, and boot memory holds what it held at first. The runs do not fault as long as a frame is
left after the last cycle. -/
theorem runs_wellFormed (config : Config) (threshold : Option Level) (contents : Contents)
    (values : List (Reg × View × Quad)) (counts : List UInt64) :
    (∀ s, (prepared config threshold contents values).runs counts = .ok s →
        s.WellFormed contents.boot) ∧
      ((counts.map UInt64.toNat).sum + Schedule.frame.toNat < 2 ^ 64 →
        ∃ s, (prepared config threshold contents values).runs counts = .ok s) := by
  have hprepared := wellFormed_prepared config threshold contents values
  refine ⟨fun s h => wellFormed_runs hprepared h, fun h => exists_runs hprepared ?_⟩
  have hstart : (prepared config threshold contents values).schedule.cycle.toNat = 0 := rfl
  rw [hstart]
  omega

/-- Two runs from clear memories, with a value for the zero register that is ignored. -/
theorem runs_wellFormed_zero :
    let contents : Contents :=
      ⟨.zero mainSize, .zero bootSize, .zero iopSize, .zero scratchpadSize⟩
    let values : List (Reg × View × Quad) := [(.gpr .zero, ⟨false, .double⟩, Quad.ofLow 5)]
    ([3, 40].map UInt64.toNat).sum + Schedule.frame.toNat < 2 ^ 64 ∧
      ∃ s, (prepared .standard none contents values).runs [3, 40] = .ok s ∧
        s.WellFormed contents.boot := by
  intro contents values
  have hfits : ([3, 40].map UInt64.toNat).sum + Schedule.frame.toNat < 2 ^ 64 := by decide
  obtain ⟨hwell, hruns⟩ := runs_wellFormed .standard none contents values [3, 40]
  obtain ⟨s, hs⟩ := hruns hfits
  exact ⟨hfits, s, hs, hwell s hs⟩

end Simulation

end R5900
