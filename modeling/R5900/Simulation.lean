import R5900.Execute.Step
import R5900.Schedule

/-!
# A simulation

The machine with the standard devices, driven together: the processor runs in stretches between the
video events, the timers pass a bus cycle at every multiple of the divider, and the interrupt
controller drives line 0 of the processor, which is refreshed before every instruction.

`Simulation.run` runs a given number of cycles. It looks at the schedule only between stretches of at
most 32 cycles, and an event takes no time.
-/

namespace R5900

/-- The settings of a run. -/
structure Config where
  /-- Processor cycles for one bus cycle; zero counts as one. -/
  busDivider : UInt64
  /-- Where to start instead of the reset vector or the entry point of a loaded program. -/
  entryPoint : Option UInt32
  /-- The cycles to run when a run gives no number; none means without end. -/
  cycles : Option UInt64
  deriving DecidableEq, Repr

/-- The settings when nothing is said. -/
def Config.standard : Config := ⟨2, none, none⟩

/-- The machine with its schedule and settings. -/
structure Simulation where
  machine : Machine
  schedule : Schedule
  config : Config

/-- The map of the standard machine. -/
def standardMap : List (Region × UnitId) :=
  [(.slot Intc.statusAddress, .intc), (.slot Intc.maskAddress, .intc),
    (.slot Rdram.commandAddress, .rdram), (.slot Rdram.dataAddress, .rdram),
    (.range 0x10008000 0x1000F000, .dmac),
    (.slot Dmac.enabledAddress, .dmac), (.slot Dmac.enableAddress, .dmac),
    (.range 0x1000F200 0x1000F260, .sif),
    (.range 0x10003800 0x10004000, .vif), (.range 0x10002000 0x10003000, .ipu),
    (.range 0x10000000 0x10002000, .timer), (.range 0x12000000 0x12002000, .gs)]

namespace Machine

open Exec

/-- Change the interrupt controller. -/
@[inline] def onIntc (m : Machine) (f : Intc → Intc) : Machine :=
  match m with
  | ⟨core, ⟨main, boot, iop, devices, map⟩, journal⟩ =>
    ⟨core, ⟨main, boot, iop, { devices with intc := f devices.intc }, map⟩, journal⟩

/-- Latch a source in the interrupt controller. -/
def raiseSource (m : Machine) (source : InterruptSource) : Machine :=
  { m.onIntc (·.raise source) with journal := m.journal.add (Intc.raiseNote source) }

/-- Add a note to the journal. -/
@[inline] def report (m : Machine) (n : Note) : Machine := { m with journal := m.journal.add n }

/-- Drive line 0 of the processor by the interrupt controller. -/
@[inline] def refreshLine (m : Machine) : Machine :=
  if m.bus.devices.intc.pending then { m with core := m.core.request .int0 }
  else { m with core := m.core.release .int0 }

/-- Replace the timers. -/
@[inline] def setTimer (m : Machine) (timer : Timer) : Machine :=
  match m with
  | ⟨core, ⟨main, boot, iop, devices, map⟩, journal⟩ =>
    ⟨core, ⟨main, boot, iop, { devices with timer := timer }, map⟩, journal⟩

/-- Latch the sources of the timers whose bits are set, first timer first. -/
def raiseTimers (m : Machine) (raised : UInt8) : Machine :=
  (List.range 4).foldl
    (fun m i =>
      if raised &&& (1 <<< UInt8.ofNat i) != 0 then m.raiseSource (.timer i) else m) m

/-- Pass one bus cycle: the timers advance, and the interrupts they raise are latched. -/
def busCycle (m : Machine) : Except Fault Machine := do
  let (raised, timer) := (← m.bus.devices.timer.step).take
  let m := m.setTimer timer
  return if raised = 0 then m else m.raiseTimers raised

/-- Run one instruction that ends at the given cycle, with the bus cycle that falls on it. -/
@[inline] def cycle (divider now : UInt64) (m : Machine) : Except Fault Machine := do
  let m ← m.step
  let m ← if now % divider = 0 then m.busCycle else .ok m
  return m.refreshLine

/-- Run a number of instructions from the given cycle on. -/
def cycles (divider : UInt64) : Nat → UInt64 → Machine → Except Fault Machine
  | 0, _, m => .ok m
  | n + 1, now, m => do
    let now ← Checked.add64 now 1
    cycles divider n now (← m.cycle divider now)

/-- The report of a due event. -/
def eventNote (event : VideoEvent) (now : UInt64) : Note :=
  ⟨.trace, fun _ => event.name ++ " at cycle " ++ toString now.toNat⟩

/-- Deliver a video event. The graphics unit asks for an interrupt only if it lets the vertical
blank through. -/
def deliverEvent (event : VideoEvent) (now : UInt64) (m : Machine) : Machine :=
  let m := m.report (eventNote event now)
  match event with
  | .vblankStart => (m.report ⟨.debug, fun _ => "VBlank start"⟩).raiseSource .vblankStart
  | .vblankEnd => (m.report ⟨.debug, fun _ => "VBlank end"⟩).raiseSource .vblankEnd
  | .gsVblank =>
    match m with
    | ⟨core, ⟨main, boot, iop, devices, map⟩, journal⟩ =>
      let (asks, gs) := devices.gs.vblank
      let m : Machine :=
        ⟨core, ⟨main, boot, iop, { devices with gs := gs }, map⟩, journal⟩
      if asks then m.raiseSource .gs else m

end Machine

/-- The cycles to run next: up to the end of the run at most. -/
theorem toNat_add_min_sub {now stop n : UInt64} (h : now < stop) (hn : 0 < n.toNat) :
    0 < (min n (stop - now)).toNat ∧ now.toNat + (min n (stop - now)).toNat ≤ stop.toNat := by
  rw [UInt64.lt_iff_toNat_lt] at h
  have hs : (stop - now).toNat = stop.toNat - now.toNat :=
    UInt64.toNat_sub_of_le _ _ (UInt64.le_iff_toNat_le.2 (Nat.le_of_lt h))
  have hle : (min n (stop - now)).toNat ≤ (stop - now).toNat := by
    show (if n ≤ stop - now then n else stop - now).toNat ≤ _
    split
    · rename_i hle
      exact UInt64.le_iff_toNat_le.1 hle
    · exact Nat.le_refl _
  refine ⟨?_, by omega⟩
  rcases Schedule.minCases n (stop - now) with heq | heq <;> rw [heq]
  · exact hn
  · omega

namespace Simulation

/-- The standard machine, with a journal that keeps notes up to a threshold. -/
def initial (config : Config) (threshold : Option Level) : Simulation where
  machine :=
    { core := match config.entryPoint with
        | some pc => Core.initial.enterAt pc
        | none => Core.initial
      bus := { Bus.initial with map := standardMap }
      journal := .upTo threshold }
  schedule := .initial
  config := config

/-- The divider of the bus clock, at least one. -/
def divider (config : Config) : UInt64 := max config.busDivider 1

set_option linter.unusedVariables false in
/-- Run up to a cycle: stretches of instructions and the events that are due between them. -/
def runTo (stop divider : UInt64) (m : Machine) (s : Schedule) :
    Except Fault (Machine × Schedule) :=
  if hlt : s.cycle < stop then
    match hnext : s.next with
    | .error fault => .error fault
    | .ok (.run n, s') =>
      match htick : s'.tick (min n (stop - s'.cycle)) with
      | .error fault => .error fault
      | .ok s'' =>
        match m.cycles divider (min n (stop - s'.cycle)).toNat s'.cycle with
        | .error fault => .error fault
        | .ok m => runTo stop divider m.refreshLine s''
    | .ok (.event event, s') =>
      runTo stop divider (m.deliverEvent event s.cycle).refreshLine s'
  else .ok (m, s)
termination_by (stop.toNat - s.cycle.toNat, s.overdue)
decreasing_by
  · obtain ⟨rfl, hn⟩ := Schedule.pos_of_next_run hnext
    obtain ⟨c, hc, ht⟩ := exists_of_bind_eq_ok htick
    cases ht
    have hsum := Checked.toNat_of_add64 hc
    obtain ⟨hpos, hle⟩ := toNat_add_min_sub hlt hn
    apply Prod.Lex.left
    show stop.toNat - c.toNat < stop.toNat - s'.cycle.toNat
    omega
  · obtain ⟨hcycle, hlate⟩ := Schedule.overdue_next_lt hnext
    rw [hcycle]
    exact Prod.Lex.right _ hlate

/-- The report of a run that starts. -/
def runningNote (pc : UInt32) : Note := ⟨.info, fun _ => "Running from " ++ Text.address pc⟩

/-- Report that a run starts. -/
def start (s : Simulation) : Simulation :=
  match s with
  | ⟨machine, schedule, config⟩ =>
    ⟨machine.report (runningNote machine.core.pc), schedule, config⟩

/-- Pass a number of cycles. -/
def advance (s : Simulation) (cycles : UInt64) : Except Fault Simulation :=
  match s with
  | ⟨machine, schedule, config⟩ => do
    let stop ← Checked.add64 schedule.cycle cycles
    let (machine, schedule) ← runTo stop (divider config) machine schedule
    return ⟨machine, schedule, config⟩

/-- Run a number of cycles. -/
def run (s : Simulation) (cycles : UInt64) : Except Fault Simulation := s.start.advance cycles

/-- The cycles of a run that may leave the number to the settings; none means without end. -/
def budget? (s : Simulation) (cycles : Option UInt64) : Option UInt64 := cycles <|> s.config.cycles

end Simulation

end R5900
