import R5900.Proofs.Schedule
import R5900.Proofs.Simulation.Cycle

/-!
# Driving the machine cycle by cycle

A simulation runs in stretches that end where the next event is due, where the budget ends, or
after 32 cycles, and looks at the schedule only in between. `Simulation.driverCycle` is the plain
driver that it stands for: in every cycle it first delivers all events that are due, then runs one
instruction, passes the bus cycle that falls on the end of the cycle, and refreshes the interrupt
line.

`Simulation.runTo_eq_driverCycles` shows that both drivers end in the same state, faults included.
The induction is on the cycles that are left and, where no time passes, on how late the events are.
Where no event is due, a stretch is that many driver cycles (`Simulation.driverCycles_of_waits`);
where one is due, delivering it first changes nothing about the driver cycle that follows
(`Simulation.driverCycle_of_due`).
-/

namespace R5900

/-- Deliver events in order, and refresh the interrupt line after each. -/
def Machine.deliverAll (events : List PendingEvent) (now : UInt64) (m : Machine) : Machine :=
  events.foldl (fun m e => (m.deliverEvent e.event now).refreshLine) m

theorem Machine.deliverAll_cons (e : PendingEvent) (events : List PendingEvent) (now : UInt64)
    (m : Machine) : m.deliverAll (e :: events) now =
      (m.deliverEvent e.event now).refreshLine.deliverAll events now :=
  List.foldl_cons

namespace Simulation

/-- One cycle of the plain driver. -/
def driverCycle (s : Simulation) : Except Fault Simulation := do
  let (events, schedule) ← s.schedule.dueEvents
  let machine ← (s.machine.deliverAll events s.schedule.cycle).step
  let schedule ← schedule.tick 1
  let machine ← if schedule.cycle % divider s.config = 0 then machine.busCycle else .ok machine
  return ⟨machine.refreshLine, schedule, s.config⟩

/-- A number of cycles of the plain driver. -/
def driverCycles : Nat → Simulation → Except Fault Simulation
  | 0, s => .ok s
  | n + 1, s => do driverCycles n (← s.driverCycle)

theorem driverCycles_add (a b : Nat) (s : Simulation) :
    driverCycles (a + b) s = driverCycles a s >>= driverCycles b := by
  induction a generalizing s with
  | zero =>
    rw [Nat.zero_add]
    rfl
  | succ a ih =>
    rw [Nat.succ_add, driverCycles, driverCycles]
    cases s.driverCycle with
    | error fault => rfl
    | ok s' => exact ih s'

/-! ## One cycle -/

section Cycle

variable {m : Machine} {s s' : Schedule} {config : Config}

theorem driverCycle_of_error {fault : Fault} (h : s.takeDue = .error fault) :
    driverCycle ⟨m, s, config⟩ = .error fault := by
  unfold driverCycle
  rw [Schedule.dueEvents_of_error h]
  rfl

/-- A driver cycle delivers the first due event, and goes on as if it had come before. -/
theorem driverCycle_of_due {e : PendingEvent} (h : s.takeDue = .ok (some (e, s'))) :
    driverCycle ⟨m, s, config⟩ =
      driverCycle ⟨(m.deliverEvent e.event s.cycle).refreshLine, s', config⟩ := by
  obtain ⟨rest, -, -, -, rfl⟩ := Schedule.of_takeDue_eq_some h
  unfold driverCycle
  rw [Schedule.dueEvents_of_due h]
  cases Schedule.dueEvents ⟨s.cycle, Schedule.insert e.inNextFrame rest⟩ with
  | error fault => rfl
  | ok r =>
    simp only [bind, Except.bind, pure, Except.pure, Machine.deliverAll_cons]

theorem tick_eq_ok {n : UInt64} (h : s.cycle.toNat + n.toNat < 2 ^ 64) :
    s.tick n = .ok { s with cycle := UInt64.ofNat (s.cycle.toNat + n.toNat) } := by
  have hsum : s.cycle + n = UInt64.ofNat (s.cycle.toNat + n.toNat) := by
    rw [UInt64.ofNat_add, UInt64.ofNat_toNat, UInt64.ofNat_toNat]
  rw [Schedule.tick, Checked.add64_eq_ok h, hsum]
  rfl

/-- After the due events are delivered, a driver cycle is a cycle of the machine. -/
theorem driverCycle_eq {events : List PendingEvent} {rest rest' : Schedule}
    (hevents : s.dueEvents = .ok (events, rest)) (htick : rest.tick 1 = .ok rest') :
    driverCycle ⟨m, s, config⟩ = (do
      let m' ← (m.deliverAll events s.cycle).cycle (divider config) rest'.cycle
      return ⟨m', rest', config⟩) := by
  unfold driverCycle Machine.cycle
  simp only [hevents, bind, Except.bind, htick]
  cases (m.deliverAll events s.cycle).step with
  | error fault => rfl
  | ok m₁ =>
    by_cases hmultiple : rest'.cycle % divider config = 0
    · simp only [if_pos hmultiple]
      cases m₁.busCycle with
      | error fault => rfl
      | ok m₂ => rfl
    · simp only [if_neg hmultiple]
      rfl

/-- What a driver cycle does that does not fault. -/
theorem exists_of_driverCycle {r : Simulation} (h : driverCycle ⟨m, s, config⟩ = .ok r) :
    ∃ events rest rest' m', s.dueEvents = .ok (events, rest) ∧ rest.tick 1 = .ok rest' ∧
      (m.deliverAll events s.cycle).cycle (divider config) rest'.cycle = .ok m' ∧
      r = ⟨m', rest', config⟩ := by
  obtain ⟨⟨events, rest⟩, hevents, hrest⟩ := exists_of_bind_eq_ok h
  obtain ⟨m₁, -, hrest⟩ := exists_of_bind_eq_ok hrest
  obtain ⟨rest', htick, -⟩ := exists_of_bind_eq_ok hrest
  rw [driverCycle_eq hevents htick] at h
  obtain ⟨m', hcycle, h⟩ := exists_of_bind_eq_ok h
  cases h
  exact ⟨events, rest, rest', m', hevents, htick, hcycle, rfl⟩

/-- While no event is due, a driver cycle is a cycle of the machine. -/
theorem driverCycle_of_waits (hw : s.Waits) (h : s.cycle.toNat + 1 < 2 ^ 64) :
    driverCycle ⟨m, s, config⟩ = (do
      let m' ← m.cycle (divider config) (UInt64.ofNat (s.cycle.toNat + 1))
      return ⟨m', { s with cycle := UInt64.ofNat (s.cycle.toNat + 1) }, config⟩) := by
  have htick : s.tick 1 = .ok { s with cycle := UInt64.ofNat (s.cycle.toNat + 1) } := tick_eq_ok h
  rw [driverCycle_eq (Schedule.dueEvents_of_waits (Schedule.takeDue_of_waits hw)) htick]
  rfl

end Cycle

/-- While no event is due, driver cycles are cycles of the machine. -/
theorem driverCycles_of_waits {m : Machine} {s : Schedule} {config : Config} {k : Nat}
    (hw : ∀ e ∈ s.queue.head?, s.cycle.toNat + k ≤ e.due.toNat)
    (hk : s.cycle.toNat + k < 2 ^ 64) :
    driverCycles k ⟨m, s, config⟩ = (do
      let m' ← m.cycles (divider config) k s.cycle
      return ⟨m', { s with cycle := UInt64.ofNat (s.cycle.toNat + k) }, config⟩) := by
  induction k generalizing m s with
  | zero =>
    rw [Nat.add_zero, UInt64.ofNat_toNat]
    rfl
  | succ k ih =>
    have hwaits : s.Waits := by
      intro e he
      have := hw e he
      rw [UInt64.lt_iff_toNat_lt]
      omega
    have hnow : Checked.add64 s.cycle 1 = .ok (UInt64.ofNat (s.cycle.toNat + 1)) := by
      rw [Checked.add64_eq_ok (show s.cycle.toNat + 1 < 2 ^ 64 by omega), UInt64.ofNat_add,
        UInt64.ofNat_toNat]
      rfl
    have htoNat : (UInt64.ofNat (s.cycle.toNat + 1)).toNat = s.cycle.toNat + 1 :=
      UInt64.toNat_ofNat_of_lt' (show s.cycle.toNat + 1 < 2 ^ 64 by omega)
    rw [driverCycles, driverCycle_of_waits hwaits (by omega), Machine.cycles, hnow]
    simp only [bind, Except.bind]
    cases m.cycle (divider config) (UInt64.ofNat (s.cycle.toNat + 1)) with
    | error fault => rfl
    | ok m₁ =>
      have hih := ih (m := m₁) (s := { s with cycle := UInt64.ofNat (s.cycle.toNat + 1) })
        (fun e he => by have := hw e he; simp only [htoNat]; omega) (by simp only [htoNat]; omega)
      simp only [htoNat] at hih
      rw [show s.cycle.toNat + 1 + k = s.cycle.toNat + (k + 1) by omega] at hih
      exact hih

/-! ## Whole runs -/

section RunTo

variable {stop d : UInt64} {m : Machine} {s s' : Schedule}

theorem runTo_of_stop (h : ¬s.cycle < stop) : runTo stop d m s = .ok (m, s) := by
  rw [runTo, dif_neg h]

theorem runTo_of_error {fault : Fault} (h : s.cycle < stop) (hnext : s.next = .error fault) :
    runTo stop d m s = .error fault := by
  rw [runTo, dif_pos h]
  split <;> simp_all

theorem runTo_of_event {event : VideoEvent} (h : s.cycle < stop)
    (hnext : s.next = .ok (.event event, s')) :
    runTo stop d m s = runTo stop d (m.deliverEvent event s.cycle).refreshLine s' := by
  rw [runTo, dif_pos h]
  split <;> simp_all

theorem runTo_of_run {n : UInt64} (h : s.cycle < stop) (hnext : s.next = .ok (.run n, s))
    (htick : s.tick (min n (stop - s.cycle)) = .ok s') :
    runTo stop d m s = (do
      let m' ← m.cycles d (min n (stop - s.cycle)).toNat s.cycle
      runTo stop d m'.refreshLine s') := by
  rw [runTo, dif_pos h]
  split
  · simp_all
  · rename_i n₁ s₁ hnext₁
    rw [hnext] at hnext₁
    cases hnext₁
    split
    · simp_all
    · rename_i s₂ htick₂
      rw [htick] at htick₂
      cases htick₂
      cases m.cycles d (min n (stop - s.cycle)).toNat s.cycle with
      | error fault => rfl
      | ok m' => rfl
  · simp_all

end RunTo

/-- While no event is due, a run passes one stretch, and the stretch is that many driver cycles. -/
theorem runTo_of_waits {stop : UInt64} {m : Machine} {s : Schedule} (config : Config)
    (hlt : s.cycle < stop) (hw : s.Waits) :
    ∃ k, 0 < k ∧ s.cycle.toNat + k ≤ stop.toNat ∧
      runTo stop (divider config) m s = (do
        let m' ← m.cycles (divider config) k s.cycle
        runTo stop (divider config) m' { s with cycle := UInt64.ofNat (s.cycle.toNat + k) }) ∧
      driverCycles k ⟨m, s, config⟩ = (do
        let m' ← m.cycles (divider config) k s.cycle
        return ⟨m', { s with cycle := UInt64.ofNat (s.cycle.toNat + k) }, config⟩) := by
  have hstop := stop.toNat_lt
  obtain ⟨n, hnext, hpos, hdue⟩ := Schedule.next_of_waits hw
  obtain ⟨hk, hle⟩ := toNat_add_min_sub hlt hpos
  have hkn := Schedule.toNat_min_le_left n (stop - s.cycle)
  refine ⟨(min n (stop - s.cycle)).toNat, hk, hle, ?_, ?_⟩
  · rw [runTo_of_run hlt hnext (tick_eq_ok (by omega))]
    -- the line was refreshed at the end of the last cycle of the stretch
    generalize (min n (stop - s.cycle)).toNat = k at hk
    obtain ⟨k, rfl⟩ : ∃ j, k = j + 1 := ⟨k - 1, by omega⟩
    cases hcycles : m.cycles (divider config) (k + 1) s.cycle with
    | error fault => rfl
    | ok m' =>
      have hm' := Machine.refreshLine_of_cycles hcycles
      simp only [bind, Except.bind, hm']
  · refine driverCycles_of_waits (fun e he => ?_) (by omega)
    have := hdue e he
    omega

/-- **Running to a cycle is as many cycles of the plain driver as are left.** -/
theorem runTo_eq_driverCycles (stop : UInt64) (config : Config) {left : Nat} (m : Machine)
    (s : Schedule) (hleft : stop.toNat - s.cycle.toNat = left) :
    (do
      let (machine, schedule) ← runTo stop (divider config) m s
      return (⟨machine, schedule, config⟩ : Simulation)) = driverCycles left ⟨m, s, config⟩ := by
  obtain ⟨late, hlate⟩ : ∃ late, s.overdue = late := ⟨_, rfl⟩
  -- a stretch leaves fewer cycles; an event leaves as many, and the events less late
  induction left using Nat.strongRecOn generalizing m s late with
  | ind left ihLeft =>
  induction late using Nat.strongRecOn generalizing m s with
  | ind late ihLate =>
    by_cases hlt : s.cycle < stop
    · have hltNat := UInt64.lt_iff_toNat_lt.1 hlt
      rcases s.next_eq with ⟨-, hw⟩ | ⟨fault, htake, hnext⟩ | ⟨e, s', htake, hnext⟩
      · -- no event is due: a stretch to the next one at most
        obtain ⟨k, hpos, hle, hrun, hcycles⟩ := runTo_of_waits (m := m) config hlt hw
        obtain ⟨left', rfl⟩ : ∃ left', left = k + left' := ⟨left - k, by omega⟩
        rw [hrun, driverCycles_add, hcycles]
        cases m.cycles (divider config) k s.cycle with
        | error fault => rfl
        | ok m' =>
          have hnow : (UInt64.ofNat (s.cycle.toNat + k)).toNat = s.cycle.toNat + k :=
            UInt64.toNat_ofNat_of_lt' (Nat.lt_of_le_of_lt hle stop.toNat_lt)
          exact ihLeft left' (by omega) m' { s with cycle := UInt64.ofNat (s.cycle.toNat + k) }
            (by simp only [hnow]; omega) _ rfl
      · obtain ⟨left', rfl⟩ : ∃ left', left = left' + 1 := ⟨left - 1, by omega⟩
        rw [runTo_of_error hlt hnext, driverCycles, driverCycle_of_error htake]
        rfl
      · -- an event is due: it comes first in the driver cycle, too
        obtain ⟨rest, -, -, -, hs'⟩ := Schedule.of_takeDue_eq_some htake
        have hcycle : s'.cycle = s.cycle := by rw [hs']
        obtain ⟨left', rfl⟩ : ∃ left', left = left' + 1 := ⟨left - 1, by omega⟩
        rw [runTo_of_event hlt hnext, driverCycles, driverCycle_of_due htake, ← driverCycles]
        refine ihLate s'.overdue ?_ _ s' ?_ rfl
        · rw [← hlate]
          exact Schedule.overdue_takeDue_lt htake
        · rw [hcycle]
          exact hleft
    · have hleNat : stop.toNat ≤ s.cycle.toNat := by
        rw [UInt64.lt_iff_toNat_lt] at hlt
        exact Nat.le_of_not_lt hlt
      obtain rfl : left = 0 := by omega
      rw [runTo_of_stop hlt]
      rfl

end Simulation

end R5900
