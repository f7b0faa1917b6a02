import R5900.Proofs.Device.TimerInterrupt
import R5900.Proofs.Simulation.Instructions

/-!
# No timer interrupt is lost

The interrupt of a timer passes from its flag to the interrupts that the timers have raised, to the
status of the interrupt controller, to the line and to the processor, and each of these is brought
up to date at its own point of the cycle.

* `Machine.status_of_flagRises`: after a bus cycle, the status bit of every timer is set of which
  the cycle has set a flag.
* `Simulation.Instructions.status_of_unacknowledged`: a status bit stays set until a step
  acknowledges it.
* `Simulation.timer_interrupts_arrive`: so the interrupt reaches the processor, and it is taken by
  the first instruction that lets it through.
-/

namespace R5900

/-- The status bit of the interrupt controller that belongs to a timer. -/
def Timer.statusBit (i : Fin 4) : UInt32 := 9 + UInt32.ofNat i.val

theorem InterruptSource.bit_timer (i : Fin 4) :
    (InterruptSource.timer i).bit = Timer.statusBit i := by
  revert i
  decide

namespace Machine

/-! ## From the timers to the controller -/

/-- A timer of a machine. -/
def counter (m : Machine) (i : Fin 4) : Counter := m.bus.devices.timer.counters.get i

@[simp] theorem timer_raiseEach (raised : UInt8) (timers : List Nat) (m : Machine) :
    (m.raiseEach raised timers).bus.devices.timer = m.bus.devices.timer := by
  induction timers generalizing m with
  | nil => rfl
  | cons i timers ih =>
    rw [raiseEach_cons, ih]
    split <;> rfl

/-- Latching the sources of raised timers sets their status bits. -/
theorem status_of_raiseEach {raised : UInt8} {timers : List Nat} {i : Nat} (hi : i ∈ timers)
    (hraised : raised &&& 1 <<< UInt8.ofNat i ≠ 0) (m : Machine) :
    testBit32 (m.raiseEach raised timers).intc.status (InterruptSource.timer i).bit = true := by
  induction timers generalizing m with
  | nil => cases hi
  | cons j timers ih =>
    rw [raiseEach_cons]
    rcases List.mem_cons.1 hi with rfl | hi
    · -- the rest of the list keeps the bit that is latched here
      rw [if_pos (bne_iff_ne.2 hraised)]
      refine (extends_raiseEach raised timers _).status _ ?_
      exact Intc.testBit32_raise_self m.intc _
    · exact ih hi _

theorem counter_of_busCycle {m m' : Machine} {timer : Timer} (i : Fin 4)
    (h : m' = (m.setTimer timer.take.2).raiseTimers timer.raised) :
    m'.counter i = timer.counters.get i := by
  rw [h, counter, raiseTimers_eq, timer_raiseEach]
  rfl

/-- After a bus cycle, the status bit of every timer is set of which the cycle has set a flag. -/
theorem status_of_flagRises {m m' : Machine} (h : m.busCycle = .ok m') {i : Fin 4}
    (hflag : (m.counter i).FlagRises (m'.counter i)) :
    testBit32 m'.intc.status (Timer.statusBit i) = true := by
  obtain ⟨timer, hstep, hm'⟩ := exists_of_busCycle h
  rw [counter_of_busCycle i hm'] at hflag
  rw [hm', ← InterruptSource.bit_timer]
  exact status_of_raiseEach (List.mem_range.2 i.isLt)
    ((Timer.raises_of_step hstep i).2 (.inr hflag)) _

end Machine

namespace Simulation

/-! ## From the controller to the processor -/

/-- Outside the instructions of a run, the interrupt controller gains status bits and loses none. -/
structure GainsBetween (s s' : Simulation) (n : Nat) (b e : Nat → Machine) : Prop where
  first : 0 < n → s.machine.intc.Extends (b 0).intc
  next : ∀ i, i + 1 < n → (e i).intc.Extends (b (i + 1)).intc
  last : ∀ i, i + 1 = n → (e i).intc.Extends s'.machine.intc

/-- None of the instructions after instruction `k` and before instruction `l` acknowledges the
status bit. -/
def Unacknowledged (b : Nat → Machine) (p : UInt32) (k l : Nat) : Prop :=
  ∀ i, k < i → i < l → ¬(b i).Acknowledges p

/-- When the instruction `m` begins, that ends in the machine `m'`, the interrupt of the status bit
has arrived at the processor: the bit is set, and unless the controller masks it, the line is
latched, and the instruction delivers an interrupt if it raises nothing and leaves control registers
that let the line through. -/
structure Arrived (p : UInt32) (m m' : Machine) : Prop where
  status : testBit32 m.intc.status p = true
  line : testBit32 m.intc.mask p = true → m.core.control.latches .int0 = true
  taken : testBit32 m.intc.mask p = true → ∀ word s, m.Leaves word s → s.LetsThrough .int0 →
    m.delivery? = some (.interrupt, s.publish) ∧
      Machine.Takes s .interrupt (m.nextPc word) (m.transferOf word).isBranch 0x200 m'

theorem arrived_of_status {p : UInt32} {m m' : Machine} (hstep : m.step = .ok m')
    (hfresh : m.LineFresh) (hstatus : testBit32 m.intc.status p = true) : Arrived p m m' := by
  have hline : testBit32 m.intc.mask p = true → m.core.control.latches .int0 = true := by
    intro hmask
    rw [m.lineFresh_iff.1 hfresh]
    exact Intc.pending_of_testBit32 hstatus hmask
  refine ⟨hstatus, hline, fun hmask word s hleaves hlets => ?_⟩
  exact Machine.interrupted_of_leaves hstep hleaves hlets (hline hmask)

namespace Instructions

variable {s : Simulation} {n : Nat} {b e : Nat → Machine} (hrun : s.Instructions n b e)
include hrun

theorem gainsBetween {s' : Simulation} (h : driverCycles n s.start = .ok s') :
    GainsBetween s s' n b e := by
  refine ⟨hrun.extends_first, fun i => hrun.extends_next, ?_⟩
  rintro i rfl
  exact hrun.extends_last (Nat.lt_succ_self i) h

/-- The bus cycle that falls on an instruction of a run does not fault. -/
theorem exists_busCycle {s' : Simulation} (h : driverCycles n s.start = .ok s') {k : Nat}
    (hk : k < n) (hbus : s.BusCycleAt k) : ∃ m, (e k).busCycle = .ok m := by
  obtain ⟨sₖ, s₁, hₖ, hcycle⟩ := exists_of_driverCycles h hk
  obtain ⟨m, m₁, m₂, hbegins, hstep, hm₂, -, -⟩ := exists_of_driverCycles_succ hₖ hcycle
  rw [hrun.begins k hk] at hbegins
  cases hbegins
  rw [hrun.step k hk] at hstep
  cases hstep
  exact ⟨m₂, hm₂ hbus⟩

/-- A status bit stays set during an instruction that does not acknowledge it. -/
theorem status_of_step {p : UInt32} {i : Nat} (hi : i < n)
    (hset : testBit32 (b i).intc.status p = true) (hquiet : ¬(b i).Acknowledges p) :
    testBit32 (e i).intc.status p = true := by
  cases hclear : testBit32 (e i).intc.status p with
  | true => rfl
  | false => exact absurd (Machine.acknowledges_of_cleared (hrun.step i hi) hset hclear) hquiet

/-- A status bit stays set until a step acknowledges it. -/
theorem status_of_unacknowledged {p : UInt32} {k l : Nat} (hkl : k + 1 ≤ l) (hl : l < n)
    (hset : testBit32 (b (k + 1)).intc.status p = true) (hquiet : Unacknowledged b p k l) :
    testBit32 (b l).intc.status p = true := by
  induction l, hkl using Nat.le_induction with
  | base => exact hset
  | succ l hkl ih =>
    -- instruction `l` keeps the bit, and so does what comes between it and the next one
    have hbefore := ih (by omega) fun i hk hi => hquiet i hk (by omega)
    have hafter := hrun.status_of_step (by omega) hbefore (hquiet l hkl (by omega))
    exact (hrun.extends_next hl).status p hafter

/-- A status bit that a bus cycle has set and no step acknowledges is set at the end of the run. -/
theorem status_at_end {s' : Simulation} (h : driverCycles n s.start = .ok s') {p : UInt32}
    {k : Nat} (hk : k < n) (hbus : s.BusCycleAt k) {m : Machine} (hm : (e k).busCycle = .ok m)
    (hset : testBit32 m.intc.status p = true) (hquiet : Unacknowledged b p k n) :
    testBit32 s'.machine.intc.status p = true := by
  obtain ⟨l, rfl⟩ : ∃ l, n = l + 1 := ⟨n - 1, by omega⟩
  rcases Nat.eq_or_lt_of_le (Nat.le_of_lt_succ hk) with rfl | hlt
  · rwa [hrun.intc_after hk h hbus hm]
  · have hnext := (hrun.extends_of_busCycle (by omega) hbus hm).status p hset
    have hlast := hrun.status_of_unacknowledged hlt (Nat.lt_succ_self l) hnext
      fun i hki hil => hquiet i hki (by omega)
    have hafter := hrun.status_of_step (Nat.lt_succ_self l) hlast
      (hquiet l hlt (Nat.lt_succ_self l))
    exact (hrun.extends_last (Nat.lt_succ_self l) h).status p hafter

end Instructions

/-- **No timer interrupt is lost between the timer and the processor.** In every run:

* a step clears a status bit of the interrupt controller only if it acknowledges it, and between
  instructions no status bit is cleared;
* a bus cycle that falls on an instruction does not fault, and if it sets a flag of a timer, the
  status bit of the timer is set after it;
* when a later instruction begins and the bit was not acknowledged until then, the interrupt has
  arrived at the processor: so the first instruction takes it that raises nothing and lets it
  through;
* if it is not acknowledged in the run, the bit is set at the end of the run. -/
theorem timer_interrupts_arrive {s s' : Simulation} {n : UInt64} (h : s.run n = .ok s') :
    ∃ b e, s.Instructions n.toNat b e ∧ GainsBetween s s' n.toNat b e ∧
      (∀ k < n.toNat, ∀ p, testBit32 (b k).intc.status p = true →
        testBit32 (e k).intc.status p = false → (b k).Acknowledges p) ∧
      ∀ k < n.toNat, s.BusCycleAt k → ∃ m, (e k).busCycle = .ok m ∧
        ∀ i : Fin 4, ((e k).counter i).FlagRises (m.counter i) →
          testBit32 m.intc.status (Timer.statusBit i) = true ∧
          (∀ l, k < l → l < n.toNat → Unacknowledged b (Timer.statusBit i) k l →
            Arrived (Timer.statusBit i) (b l) (e l)) ∧
          (Unacknowledged b (Timer.statusBit i) k n.toNat →
            testBit32 s'.machine.intc.status (Timer.statusBit i) = true) := by
  obtain ⟨b, e, hrun⟩ := exists_instructions h
  have hcycles := driverCycles_of_run h
  refine ⟨b, e, hrun, hrun.gainsBetween hcycles, ?_, ?_⟩
  · exact fun k hk p => Machine.acknowledges_of_cleared (hrun.step k hk)
  · intro k hk hbus
    obtain ⟨m, hm⟩ := hrun.exists_busCycle hcycles hk hbus
    refine ⟨m, hm, fun i hflag => ?_⟩
    have hraised := Machine.status_of_flagRises hm hflag
    refine ⟨hraised, fun l hkl hl hquiet => ?_, hrun.status_at_end hcycles hk hbus hm hraised⟩
    have hnext := (hrun.extends_of_busCycle (by omega) hbus hm).status _ hraised
    exact arrived_of_status (hrun.step l hl) (hrun.lineFresh hl (.inl (by omega)))
      (hrun.status_of_unacknowledged hkl hl hnext hquiet)

/-- Timer 0 wraps on the next bus cycle, and raises an interrupt then. -/
def wrappingTimer : Timer :=
  ⟨#v[⟨0xFFFF, 0x280, 0, 0, 0⟩, .initial, .initial, .initial], 0⟩

/-- The standard machine with a timer about to wrap whose interrupt the controller lets through. The
program counter is not aligned, so the first step only raises an exception. -/
def wrapping : Simulation :=
  let s := initial ⟨1, some 1, none⟩ none
  { s with machine := (s.machine.setTimer wrappingTimer).onIntc ({ · with mask := 0x200 }) }

theorem begins_wrapping : wrapping.begins 0 = .ok wrapping.start.machine := by
  have hevents : wrapping.start.schedule.dueEvents = .ok ([], wrapping.start.schedule) :=
    Schedule.dueEvents_of_waits rfl
  rw [begins, driverCycles]
  simp only [bind, Except.bind, hevents]
  rfl

theorem bounded_wrapping : wrapping.machine.Bounded := by
  show ∀ i : Fin 4, (wrappingTimer.counters.get i).prescaler.toNat < 256
  decide

/-- The first bus cycle sets the flag. -/
theorem flagRises_wrapping {m m' : Machine} (hm : m.bus = wrapping.machine.bus)
    (h : m.busCycle = .ok m') : (m.counter 0).FlagRises (m'.counter 0) := by
  obtain ⟨timer, hstep, hm'⟩ := Machine.exists_of_busCycle h
  rw [Machine.counter_of_busCycle 0 hm', Machine.counter, hm]
  rw [hm] at hstep
  have hwraps : wrappingTimer.step = .ok timer := hstep
  cases hwraps
  exact .inr ⟨by decide, by decide⟩

/-- The interrupt of a timer that wraps on the first bus cycle has arrived when the next instruction
begins. -/
theorem timer_interrupts_arrive_wrapping : ∃ s' b e m, wrapping.run 2 = .ok s' ∧
    wrapping.Instructions 2 b e ∧ (e 0).busCycle = .ok m ∧
    ((e 0).counter 0).FlagRises (m.counter 0) ∧ testBit32 m.intc.status 9 = true ∧
    Arrived 9 (b 1) (e 1) := by
  obtain ⟨s', hs'⟩ := exists_run_of_bounded (n := 2) bounded_wrapping (by decide)
  obtain ⟨b, e, hrun, -, -, hall⟩ := timer_interrupts_arrive hs'
  have hb : b 0 = wrapping.start.machine :=
    Except.ok.inj ((hrun.begins 0 (by decide)).symm.trans begins_wrapping)
  have he : (e 0).bus = wrapping.machine.bus := by
    have hpc : ¬Width.word.bytes ∣ (b 0).core.pc.toNat := by
      rw [hb]
      decide
    exact (Machine.bus_of_step_misaligned hpc (hrun.step 0 (by decide))).trans
      (congrArg Machine.bus hb)
  obtain ⟨m, hm, hflags⟩ := hall 0 (by decide) rfl
  have hflag := flagRises_wrapping he hm
  obtain ⟨hstatus, hlater, -⟩ := hflags 0 hflag
  exact ⟨s', b, e, m, hs', hrun, hm, hflag, hstatus,
    hlater 1 (by decide) (by decide) fun i hi hi' => absurd hi' (Nat.not_lt.2 hi)⟩

end Simulation

end R5900
