import R5900.Proofs.Schedule.Recurrence
import R5900.Proofs.Simulation.Driver

/-!
# Runs

What a run of a given number of cycles does, for every simulation that it starts from.

* `Simulation.run_refines_driver`: it is that many cycles of the plain driver. It passes that many
  cycles exactly, and delivers every recurrence of an event in the cycle in which it is due; what
  was late at the start comes in the first cycle.
* `Simulation.run_never_faults`: it does not fault. The memories, the processor, the map of the
  bus, the schedule and the settings are arbitrary; of the devices it is assumed only that they can
  be reached (`Bank.Reachable`). The invariant behind it is that the prescalers of the timers are
  bounded.
-/

namespace R5900

open Schedule (frame)

/-! ## Driver cycles that do not fault -/

theorem Machine.bounded_deliverAll {events : List PendingEvent} {now : UInt64} {m : Machine}
    (hm : m.Bounded) : (m.deliverAll events now).Bounded := by
  induction events generalizing m with
  | nil => exact hm
  | cons e events ih => exact ih (bounded_refreshLine (bounded_deliverEvent e.event now hm))

namespace Simulation

/-- A driver cycle on bounded timers does not fault if the due cycles fit. -/
theorem driverCycle_eq_ok {s : Simulation} {stop : Nat} (hm : s.machine.Bounded)
    (hfits : s.schedule.Fits stop) (hlt : s.schedule.cycle.toNat < stop) (hstop : stop < 2 ^ 64) :
    ∃ s', s.driverCycle = .ok s' ∧ s'.machine.Bounded ∧ s'.schedule.Fits stop ∧
      s'.schedule.cycle.toNat = s.schedule.cycle.toNat + 1 := by
  obtain ⟨machine, schedule, config⟩ := s
  obtain ⟨events, rest, hevents, hcycle, hrest⟩ := Schedule.dueEvents_eq_ok hfits hlt
  have hsum : rest.cycle.toNat + 1 < 2 ^ 64 := by
    rw [hcycle]
    exact Nat.lt_of_le_of_lt hlt hstop
  have htick : rest.tick 1 = .ok { rest with cycle := UInt64.ofNat (rest.cycle.toNat + 1) } :=
    tick_eq_ok hsum
  have hnow : (UInt64.ofNat (rest.cycle.toNat + 1)).toNat = schedule.cycle.toNat + 1 := by
    rw [UInt64.toNat_ofNat_of_lt' hsum, hcycle]
  obtain ⟨m', hmachine, hm'⟩ := Machine.cycle_bounded (divider config)
    (UInt64.ofNat (rest.cycle.toNat + 1)) (Machine.bounded_deliverAll hm)
  refine ⟨⟨m', { rest with cycle := UInt64.ofNat (rest.cycle.toNat + 1) }, config⟩, ?_, hm',
    hrest, hnow⟩
  rw [driverCycle_eq hevents htick, hmachine]
  rfl

/-- Driver cycles on bounded timers do not fault if the due cycles fit. -/
theorem driverCycles_eq_ok {n : Nat} {s : Simulation} (hm : s.machine.Bounded)
    (hfits : s.schedule.Fits (s.schedule.cycle.toNat + n))
    (hstop : s.schedule.cycle.toNat + n < 2 ^ 64) :
    ∃ s', driverCycles n s = .ok s' ∧ s'.machine.Bounded := by
  induction n generalizing s with
  | zero => exact ⟨s, rfl, hm⟩
  | succ n ih =>
    obtain ⟨s₁, hcycle, hm₁, hfits₁, hnow⟩ := driverCycle_eq_ok hm hfits (by omega) hstop
    have hleft : s₁.schedule.cycle.toNat + n = s.schedule.cycle.toNat + (n + 1) := by omega
    obtain ⟨s', hcycles, hm'⟩ := ih hm₁ (hleft ▸ hfits₁) (hleft ▸ hstop)
    exact ⟨s', by rw [driverCycles, hcycle]; exact hcycles, hm'⟩

/-! ## The schedule along the driver cycles -/

/-- A driver cycle takes the due events, and passes one cycle. -/
theorem schedule_of_driverCycle {s s' : Simulation} (h : s.driverCycle = .ok s') :
    ∃ events rest, s.schedule.dueEvents = .ok (events, rest) ∧
      s'.schedule.queue = rest.queue ∧ s'.schedule.cycle.toNat = rest.cycle.toNat + 1 := by
  obtain ⟨machine, schedule, config⟩ := s
  obtain ⟨events, rest, rest', m', hevents, htick, -, rfl⟩ := exists_of_driverCycle h
  obtain ⟨c, hc, htick⟩ := exists_of_bind_eq_ok htick
  have hsum := Checked.toNat_of_add64 hc
  cases htick
  exact ⟨events, rest, hevents, rfl, hsum⟩

end Simulation

/-- The schedule `s` is what is left of the schedule `s₀` after a number of driver cycles. No event
is late once a cycle has passed, and the schedules stand for the same events from then on. -/
structure Schedule.After (s₀ : Schedule) (i : Nat) (s : Schedule) : Prop where
  cycle : s.cycle.toNat = s₀.cycle.toNat + i
  ordered : s.Ordered
  onTime : 0 < i → ∀ e ∈ s.queue, s.cycle.toNat ≤ e.due.toNat
  sound : ∀ x, s.Recurs x → s₀.Recurs x
  complete : ∀ x, s₀.Recurs x → (0 < i → s.cycle.toNat ≤ x.due.toNat) → s.Recurs x

namespace Schedule.After

theorem refl {s : Schedule} (h : s.Ordered) : s.After 0 s where
  cycle := rfl
  ordered := h
  onTime h := absurd h (Nat.lt_irrefl 0)
  sound _ hx := hx
  complete _ hx _ := hx

/-- One more driver cycle. -/
theorem succ {s₀ s rest s' : Schedule} {i : Nat} {events : List PendingEvent} (h : s₀.After i s)
    (hevents : s.dueEvents = .ok (events, rest)) (hqueue : s'.queue = rest.queue)
    (hcycle : s'.cycle.toNat = rest.cycle.toNat + 1) : s₀.After (i + 1) s' := by
  obtain ⟨hrest, hordered, hdue, hlater, -⟩ := dueEvents_spec hevents h.ordered
  have hnow : s'.cycle.toNat = s.cycle.toNat + 1 := by rw [hcycle, hrest]
  have hrecurs : ∀ x, s'.Recurs x ↔ rest.Recurs x := by
    intro x
    unfold Recurs
    rw [hqueue]
  constructor
  · rw [hnow, h.cycle, Nat.add_assoc]
  · unfold Ordered
    rw [hqueue]
    exact hordered
  · intro _ e he
    rw [hnow]
    exact hlater e (hqueue ▸ he)
  · intro x hx
    exact h.sound x (recurs_of_dueEvents hevents ((hrecurs x).1 hx))
  · intro x hx hle
    have hle' : s.cycle.toNat + 1 ≤ x.due.toNat := hnow ▸ hle (Nat.succ_pos i)
    have hx' : s.Recurs x := h.complete x hx fun _ => Nat.le_of_succ_le hle'
    rw [hrecurs]
    rcases mem_dueEvents_or_recurs hevents hx' with hmem | hx'
    · have := hdue x hmem
      omega
    · exact hx'

end Schedule.After

namespace Simulation

theorem after_of_driverCycles {s₀ : Schedule} {i n : Nat} {s s' : Simulation}
    (h : s₀.After i s.schedule) (hcycles : driverCycles n s = .ok s') :
    s₀.After (i + n) s'.schedule := by
  induction n generalizing i s with
  | zero =>
    cases hcycles
    exact h
  | succ n ih =>
    obtain ⟨s₁, hcycle, hcycles⟩ := exists_of_bind_eq_ok hcycles
    obtain ⟨events, rest, hevents, hqueue, hnow⟩ := schedule_of_driverCycle hcycle
    have h₁ := h.succ hevents hqueue hnow
    rw [Nat.add_comm n 1, ← Nat.add_assoc]
    exact ih h₁ hcycles

/-- Driver cycles pass as many cycles as there are. -/
theorem cycle_of_driverCycles {n : Nat} {s s' : Simulation} (h : driverCycles n s = .ok s') :
    s'.schedule.cycle.toNat = s.schedule.cycle.toNat + n := by
  induction n generalizing s with
  | zero =>
    cases h
    rfl
  | succ n ih =>
    obtain ⟨s₁, hcycle, hcycles⟩ := exists_of_bind_eq_ok h
    obtain ⟨events, rest, hevents, -, hnow⟩ := schedule_of_driverCycle hcycle
    have hrest : rest.cycle = s.schedule.cycle := Schedule.cycle_of_dueEvents hevents
    rw [ih hcycles, hnow, hrest]
    omega

/-- Before every one of a number of driver cycles there is a simulation that it is a cycle of. -/
theorem exists_of_driverCycles {n i : Nat} {s s' : Simulation} (h : driverCycles n s = .ok s')
    (hi : i < n) : ∃ sᵢ s₁, driverCycles i s = .ok sᵢ ∧ sᵢ.driverCycle = .ok s₁ := by
  obtain ⟨k, rfl⟩ : ∃ k, n = i + (k + 1) := ⟨n - i - 1, by omega⟩
  rw [driverCycles_add] at h
  obtain ⟨sᵢ, hcycles, h⟩ := exists_of_bind_eq_ok h
  obtain ⟨s₁, hcycle, -⟩ := exists_of_bind_eq_ok h
  exact ⟨sᵢ, s₁, hcycles, hcycle⟩

/-! ## The run and the plain driver -/

theorem run_eq_driverCycles {s : Simulation} {n : UInt64}
    (h : s.schedule.cycle.toNat + n.toNat < 2 ^ 64) : s.run n = driverCycles n.toNat s.start := by
  obtain ⟨machine, schedule, config⟩ := s
  have hstop : (schedule.cycle + n).toNat = schedule.cycle.toNat + n.toNat := by
    rw [UInt64.toNat_add]
    exact Nat.mod_eq_of_lt h
  have hadd : Checked.add64 schedule.cycle n = .ok (schedule.cycle + n) := Checked.add64_eq_ok h
  unfold run start advance
  simp only [hadd]
  exact runTo_eq_driverCycles (schedule.cycle + n) config _ schedule (by omega)

/-- What a driver cycle delivers that begins `i` cycles after the schedule `s₀`, when it turns the
schedule `s` into the schedule `rest`: the recurrences of the events of `s₀` that are due now, and
in the first cycle also those that are late. The events are not lost, as each that is delivered is
pending again one frame later. -/
structure DeliversOnTime (s₀ : Schedule) (i : Nat) (s : Schedule) (events : List PendingEvent)
    (rest : Schedule) : Prop where
  mem_iff : ∀ x, x ∈ events ↔ s₀.Recurs x ∧
    (x.due.toNat = s₀.cycle.toNat + i ∨ i = 0 ∧ x.due.toNat < s₀.cycle.toNat)
  conserved : (events ++ rest.queue).Perm (events.map PendingEvent.inNextFrame ++ s.queue)

theorem deliversOnTime_of_after {s₀ s rest : Schedule} {i : Nat} {events : List PendingEvent}
    (h : s₀.After i s) (hevents : s.dueEvents = .ok (events, rest)) :
    DeliversOnTime s₀ i s events rest := by
  obtain ⟨-, -, hdue, -, hperm⟩ := Schedule.dueEvents_spec hevents h.ordered
  have hcycle := h.cycle
  refine ⟨fun x => ?_, hperm⟩
  rw [Schedule.mem_dueEvents_iff hevents h.ordered]
  constructor
  · rintro ⟨hx, hle⟩
    refine ⟨h.sound x hx, ?_⟩
    rcases Nat.eq_zero_or_pos i with rfl | hi
    · omega
    · have hge := Schedule.le_due_of_recurs (h.onTime hi) hx
      omega
  · rintro ⟨hx, hnow⟩
    refine ⟨h.complete x hx ?_, ?_⟩
    · intro hi
      omega
    · omega

/-- **A run is as many cycles of the plain driver.** While the cycle count does not overflow:

* running a number of cycles is running that many cycles of the plain driver, which ends in the
  same machine and schedule, or with the same fault;
* with bounded timers and due cycles that fit, it does not fault;
* it then has passed this number of cycles exactly, and has delivered in each of them the
  recurrences that were due, also if the schedule was any number of frames late. (The queue is kept
  earliest first, which is what `Ordered` says of it.) -/
theorem run_refines_driver (s : Simulation) (n : UInt64)
    (h : s.schedule.cycle.toNat + n.toNat < 2 ^ 64) :
    s.run n = driverCycles n.toNat s.start ∧
      (s.machine.Bounded → s.schedule.Fits (s.schedule.cycle.toNat + n.toNat) →
        ∃ s', s.run n = .ok s') ∧
      ∀ s', s.run n = .ok s' →
        s'.schedule.cycle.toNat = s.schedule.cycle.toNat + n.toNat ∧
        (s.schedule.Ordered → ∀ i < n.toNat, ∃ sᵢ events rest,
          driverCycles i s.start = .ok sᵢ ∧ sᵢ.schedule.dueEvents = .ok (events, rest) ∧
          DeliversOnTime s.schedule i sᵢ.schedule events rest) := by
  have hrun := run_eq_driverCycles h
  refine ⟨hrun, ?_, ?_⟩
  · intro hm hfits
    obtain ⟨s', hcycles, -⟩ := driverCycles_eq_ok (s := s.start) hm hfits h
    exact ⟨s', hrun.trans hcycles⟩
  · intro s' hs'
    have hcycles : driverCycles n.toNat s.start = .ok s' := hrun.symm.trans hs'
    refine ⟨cycle_of_driverCycles (s := s.start) hcycles, ?_⟩
    intro ho i hi
    have hstart : s.schedule.After 0 s.start.schedule := .refl ho
    obtain ⟨sᵢ, s₁, hcyclesᵢ, hcycle⟩ := exists_of_driverCycles hcycles hi
    obtain ⟨events, rest, hevents, -, -⟩ := schedule_of_driverCycle hcycle
    have hafter := after_of_driverCycles hstart hcyclesᵢ
    rw [Nat.zero_add] at hafter
    exact ⟨sᵢ, events, rest, hcyclesᵢ, hevents, deliversOnTime_of_after hafter hevents⟩

/-- The first frame of the standard machine. -/
theorem run_refines_driver_initial :
    (initial .standard none).machine.Bounded ∧
      (initial .standard none).schedule.Fits (0 + frame.toNat) ∧
      (initial .standard none).schedule.Ordered ∧ 0 + frame.toNat < 2 ^ 64 ∧
      ∃ s', (initial .standard none).run frame = .ok s' ∧
        driverCycles frame.toNat (initial .standard none).start = .ok s' ∧
        s'.schedule.cycle.toNat = 0 + frame.toNat := by
  have hlt : 0 + frame.toNat < 2 ^ 64 := by decide
  have hm : (initial .standard none).machine.Bounded := Timer.bounded_initial
  have hfits : (initial .standard none).schedule.Fits (0 + frame.toNat) :=
    Schedule.fits_of_add_frame_le (by decide)
  obtain ⟨hrun, hok, hall⟩ := run_refines_driver (initial .standard none) frame hlt
  obtain ⟨s', hs'⟩ := hok hm hfits
  exact ⟨hm, hfits, Schedule.ordered_initial, hlt, s', hs', hrun.symm.trans hs', (hall s' hs').1⟩

end Simulation

/-! ## Runs do not fault -/

/-- The devices that come from the initial ones by attaching more of them, by accesses on a bus or
to a unit, by what the devices do of their own, and by runs. In between, everything but the devices
may be replaced. -/
inductive Bank.Reachable : Bank → Prop
  | initial : Reachable .initial
  | attach {bus : Bus} (device : Device) (h : Reachable bus.devices) :
      Reachable (bus.attach device).2.devices
  | read {bus : Bus} {w : Width} {address : UInt32} {r : BusReply w.Value}
      (h : Reachable bus.devices) (hr : bus.read w address = .ok r) : Reachable r.bus.devices
  | write {bus : Bus} {w : Width} {address : UInt32} {value : w.Value} {r : BusReply Unit}
      (h : Reachable bus.devices) (hr : bus.write w address value = .ok r) :
      Reachable r.bus.devices
  | tryRead {bus : Bus} {w : Width} {address : UInt32} {r : BusReply w.Value}
      (h : Reachable bus.devices) (hr : bus.tryRead w address = .ok (.answered r)) :
      Reachable r.bus.devices
  | tryWrite {bus : Bus} {w : Width} {address : UInt32} {value : w.Value} {r : BusReply Unit}
      (h : Reachable bus.devices) (hr : bus.tryWrite w address value = .ok (.answered r)) :
      Reachable r.bus.devices
  | readUnit {b : Bank} {w : Width} {unit : UnitId} {address : UInt32} {r : Reply Bank w.Value}
      (h : Reachable b) (hr : b.read w unit address = .ok r) : Reachable r.device
  | writeUnit {b : Bank} {w : Width} {unit : UnitId} {address : UInt32} {value : w.Value}
      {r : Reply Bank Unit} (h : Reachable b) (hr : b.write w unit address value = .ok r) :
      Reachable r.device
  | raise {b : Bank} (source : InterruptSource) (h : Reachable b) :
      Reachable { b with intc := b.intc.raise source }
  | stepTimer {b : Bank} {timer : Timer} (h : Reachable b) (hr : b.timer.step = .ok timer) :
      Reachable { b with timer := timer }
  | takeInterrupts {b : Bank} (h : Reachable b) : Reachable { b with timer := b.timer.take.2 }
  | vblank {b : Bank} (h : Reachable b) : Reachable { b with gs := b.gs.vblank.2 }
  | run {s s' : Simulation} {n : UInt64} (h : Reachable s.machine.bus.devices)
      (hr : s.run n = .ok s') : Reachable s'.machine.bus.devices

namespace Simulation

theorem bounded_of_driverCycles {n : Nat} {s s' : Simulation} (hm : s.machine.Bounded)
    (h : driverCycles n s = .ok s') : s'.machine.Bounded := by
  induction n generalizing s with
  | zero =>
    cases h
    exact hm
  | succ n ih =>
    obtain ⟨machine, schedule, config⟩ := s
    obtain ⟨s₁, hcycle, h⟩ := exists_of_bind_eq_ok h
    obtain ⟨events, rest, rest', m₁, -, -, hmachine, rfl⟩ := exists_of_driverCycle hcycle
    refine ih ?_ h
    obtain ⟨m', hmachine', hm'⟩ := Machine.cycle_bounded (divider config) rest'.cycle
      (Machine.bounded_deliverAll hm)
    rw [hmachine] at hmachine'
    cases hmachine'
    exact hm'

/-- A run leaves bounded timers bounded. -/
theorem bounded_of_run {s s' : Simulation} {n : UInt64} (hm : s.machine.Bounded)
    (h : s.run n = .ok s') : s'.machine.Bounded := by
  obtain ⟨stop, hadd, -⟩ := exists_of_bind_eq_ok (x := Checked.add64 s.schedule.cycle n) h
  have hsum := Checked.toNat_of_add64 hadd
  have hlt : s.schedule.cycle.toNat + n.toNat < 2 ^ 64 := by
    rw [← hsum]
    exact stop.toNat_lt
  exact bounded_of_driverCycles (s := s.start) hm ((run_eq_driverCycles hlt).symm.trans h)

end Simulation

/-- The prescalers of reachable timers are bounded. -/
theorem Bank.Reachable.bounded {b : Bank} (h : b.Reachable) : b.timer.Bounded := by
  induction h with
  | initial => exact Timer.bounded_initial
  | attach device _ ih => exact ih
  | read _ hr ih => exact Bus.timer_read Timer.keeps_bounded ih hr
  | write _ hr ih => exact Bus.timer_write Timer.keeps_bounded ih hr
  | tryRead _ hr ih => exact Bus.timer_read Timer.keeps_bounded ih (Bus.read_of_tryRead hr)
  | tryWrite _ hr ih => exact Bus.timer_write Timer.keeps_bounded ih (Bus.write_of_tryWrite hr)
  | readUnit _ hr ih => exact Bank.timer_read Timer.keeps_bounded ih hr
  | writeUnit _ hr ih => exact Bank.timer_write Timer.keeps_bounded ih hr
  | raise source _ ih => exact ih
  | stepTimer _ hr ih =>
    obtain ⟨timer, hstep, htimer⟩ := Timer.step_eq_ok ih
    rw [hr] at hstep
    cases hstep
    exact htimer
  | takeInterrupts _ ih => exact ih
  | vblank _ ih => exact ih
  | run _ hr ih => exact Simulation.bounded_of_run ih hr

namespace Simulation

/-- **A run does not fault.** The processor, the memories, the map of the bus, the schedule and the
settings are arbitrary, and the devices are any that can be reached; of the cycle count it is asked
that a frame is left after the last cycle. -/
theorem run_never_faults (s : Simulation) (n : UInt64) (hs : s.machine.bus.devices.Reachable)
    (h : s.schedule.cycle.toNat + n.toNat + frame.toNat < 2 ^ 64) : ∃ s', s.run n = .ok s' := by
  have hstop : s.schedule.cycle.toNat + n.toNat < 2 ^ 64 := by omega
  have hm : s.start.machine.Bounded := hs.bounded
  obtain ⟨s', hcycles, -⟩ := driverCycles_eq_ok (s := s.start) hm
    (Schedule.fits_of_add_frame_le (Nat.le_of_lt h)) hstop
  exact ⟨s', (run_eq_driverCycles hstop).trans hcycles⟩

/-- A second of the standard machine without a program. -/
theorem run_never_faults_initial :
    (initial .standard none).machine.bus.devices.Reachable ∧
      0 + (294912000 : UInt64).toNat + frame.toNat < 2 ^ 64 ∧
      ∃ s', (initial .standard none).run 294912000 = .ok s' :=
  ⟨.initial, by decide, run_never_faults (initial .standard none) 294912000 .initial (by decide)⟩

end Simulation

end R5900
