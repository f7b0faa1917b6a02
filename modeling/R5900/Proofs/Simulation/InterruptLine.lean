import R5900.Proofs.Simulation.Instructions

/-!
# The interrupt line follows the interrupt controller

The processor sees the interrupt controller through a line that is latched. The latch is refreshed
between instructions only, so it has the level that the controller has when an instruction begins,
and an instruction that stores to the controller does not change what its own step publishes and
decides.

* `Simulation.line_follows_controller`: so it is in every run, and once a handler has brought the
  level down, no interrupt comes until the controller asks for one again.
* `Machine.delivery_ne_interrupt_of_low`: while the level is low, only the other lines can
  interrupt.
-/

namespace R5900

namespace Machine

/-! ## Steps while the level is low -/

/-- The lines other than that of the interrupt controller that are latched and let through. -/
def otherLines (m : Machine) : UInt32 :=
  m.core.control.latched &&& m.core.control.status.lines &&& ~~~(1 <<< Line.int0.position)

/-- The end of a step changes none of the lines that are latched, but for the timer line, and none
of those that are let through. -/
theorem lines_finished (m : Machine) {s : SystemControl} (hs : m.core.control.countCycles 1 = s) :
    m.finished.core.control.latched = s.latched ∧
      m.finished.core.control.status.lines = s.status.lines := by
  subst hs
  show m.countCycle.interrupted.core.control.latched = _ ∧
    m.countCycle.interrupted.core.control.status.lines = _
  unfold interrupted
  split
  · rw [control_delivered, SystemControl.latched_enter, SystemControl.lines_status_enter,
      countCycle_core, SystemControl.latched_publish, SystemControl.status_publish]
    exact ⟨rfl, rfl⟩
  · rw [countCycle_core, SystemControl.latched_publish, SystemControl.status_publish]
    exact ⟨rfl, rfl⟩

/-- A word without a bit is not changed by clearing the bit. -/
theorem and_and_not_of_clear {x y p : UInt32} (h : testBit32 x p = false) :
    x &&& y &&& ~~~(1 <<< p) = x &&& y := by
  refine eq_of_testBit32 fun q => ?_
  simp only [testBit32_and, testBit32_not, testBit32_one_shiftLeft]
  by_cases hpq : p.toNat % 32 = q.toNat % 32
  · rw [← testBit32_of_toNat_mod hpq, h, Bool.false_and, Bool.false_and]
  · rw [decide_eq_false hpq, Bool.not_false, Bool.and_true]

/-- **If the controller asks for nothing when an instruction begins, only another line that is
latched and let through can interrupt.** -/
theorem delivery_ne_interrupt_of_low {m m' : Machine} (hfresh : m.LineFresh)
    (hlow : m.intc.pending = false) (hstep : m.step = .ok m') (hother : m'.otherLines = 0)
    (c : SystemControl) : m.delivery? ≠ some (.interrupt, c) := by
  rcases step_cases hstep with ⟨e, m₁, hrefuses, -, -⟩ | ⟨word, m₁, next, m₂, h, rfl⟩
  · exact delivery_ne_interrupt_of_refuses hrefuses c
  · obtain ⟨s, hs⟩ : ∃ s, s = ((Instruction.decode word).control m.core).countCycles 1 := ⟨_, rfl⟩
    have hcount : (m.moved { m₂ with core.pc := next }).core.control.countCycles 1 = s := by
      rw [control_moved, h.control_eq, hs]
    obtain ⟨hlatched, hlines⟩ := lines_finished _ hcount
    have hclear : testBit32 s.latched Line.int0.position = false := by
      rw [lineFresh_iff] at hfresh
      rw [← hlow, ← hfresh, ← Instruction.latches_control (Instruction.decode word) m.core,
        ← SystemControl.latches_countCycles _ 1, ← hs]
      rfl
    rw [otherLines, hlatched, hlines, and_and_not_of_clear hclear] at hother
    have hadmits : ¬s.Admits := fun hadmits => hadmits.line hother
    rw [(h.delivery_eq hs).2 hadmits]
    nofun

/-- A store leaves the control registers alone. -/
theorem control_of_write? {i : Instruction} {m : Machine} {write : MemoryWrite}
    (h : i.write? m = some write) (c : Core) : i.control c = c.control := by
  cases i <;> first | rfl | cases h

/-- While an exception is being handled, a step that makes a write delivers no interrupt. -/
theorem delivery_ne_interrupt_of_stores {m : Machine} {write : MemoryWrite}
    (hlevel : m.core.control.status.exceptionLevel = true) (hstores : m.Stores write)
    (c : SystemControl) : m.delivery? ≠ some (.interrupt, c) := by
  obtain ⟨hquiet, word, m₁, hread, hwrite⟩ := hstores
  obtain ⟨next, m₂, h⟩ := exists_executes hquiet hread
  have hadmits : ¬(((Instruction.decode word).control m.core).countCycles 1).Admits := by
    intro hadmits
    have hlevel' := hadmits.exceptionLevel
    rw [SystemControl.status_countCycles, control_of_write? hwrite, hlevel] at hlevel'
    cases hlevel'
  rw [(h.delivery_eq rfl).2 hadmits]
  nofun

/-- A step that leaves the mask alone does not make the controller ask for an interrupt. -/
theorem pending_of_step {m m' : Machine} (h : m.step = .ok m') (hmask : m'.intc.mask = m.intc.mask)
    (hlow : m.intc.pending = false) : m'.intc.pending = false := by
  refine Intc.pending_eq_false_of_le hmask (fun p hp => ?_) hlow
  rcases intc_of_step h with heq | ⟨write, -, heq⟩
  · rwa [heq] at hp
  · rw [heq] at hp
    exact Intc.status_of_writeWords hp

end Machine

namespace Simulation

/-! ## Runs -/

/-- From the end of instruction `j` until instruction `k` begins, no source is raised and no
instruction toggles a mask bit, and when instruction `k` ends, no other line is latched and let
through. -/
structure Undisturbed (b e : Nat → Machine) (j k : Nat) : Prop where
  sources : ∀ i, j ≤ i → i < k → (b (i + 1)).intc = (e i).intc
  mask : ∀ i, j < i → i < k → (e i).intc.mask = (b i).intc.mask
  lines : (e k).otherLines = 0

/-- Once the controller asks for nothing, it asks for nothing until it is disturbed. -/
theorem Instructions.pending_eq_false {s : Simulation} {n : Nat} {b e : Nat → Machine}
    (hrun : s.Instructions n b e) {j k : Nat} (hk : k < n) (hquiet : Undisturbed b e j k)
    (hlow : (e j).intc.pending = false) :
    ∀ i, j ≤ i → i < k → (e i).intc.pending = false := by
  intro i hj
  -- a step sets no status bit and, undisturbed, nothing else does
  induction i, hj using Nat.le_induction with
  | base => exact fun _ => hlow
  | succ i hj ih =>
    intro hi
    refine Machine.pending_of_step (hrun.step (i + 1) (by omega)) (hquiet.mask _ (by omega) hi) ?_
    rw [hquiet.sources i hj (by omega)]
    exact ih (by omega)

/-- **The line of the interrupt controller follows the controller with a latency of one
instruction.** For the instructions of every run:

* whenever an instruction begins, the line is latched exactly if a status bit is let through by the
  mask at this moment (for the first instruction, if it was so before the run);
* the step publishes the level from before the instruction, and decides about an interrupt by it;
* what the controller holds after an instruction, the next one finds, together with the sources that
  are raised in between;
* if a store brings the level down while an exception is being handled, then as long as no source is
  raised, no mask bit is toggled and no other line that is let through is latched, neither its own
  step nor any later one delivers an interrupt. -/
theorem line_follows_controller {s s' : Simulation} {n : UInt64} (h : s.run n = .ok s') :
    ∃ b e, s.Instructions n.toNat b e ∧
      (∀ i < n.toNat, 0 < i ∨ s.machine.LineFresh →
        (b i).LineFresh ∧ (b i).Publishes (b i).intc.pending (e i)) ∧
      (∀ i, i + 1 < n.toNat → (e i).intc.Extends (b (i + 1)).intc) ∧
      ∀ j k, j ≤ k → k < n.toNat → (b j).core.control.status.exceptionLevel = true →
        (∃ write, (b j).Stores write) → (e j).intc.status &&& (e j).intc.mask = 0 →
        Undisturbed b e j k → ∀ c, (b k).delivery? ≠ some (.interrupt, c) := by
  obtain ⟨b, e, hrun⟩ := exists_instructions h
  refine ⟨b, e, hrun, ?_, fun i hi => hrun.extends_next hi, ?_⟩
  · intro i hi hstart
    have hfresh := hrun.lineFresh hi hstart
    refine ⟨hfresh, ?_⟩
    rw [← (Machine.lineFresh_iff _).1 hfresh]
    exact Machine.step_publishes (hrun.step i hi)
  · intro j k hjk hk hlevel hstores hlow hquiet
    have hlow' : (e j).intc.pending = false := bne_eq_false_iff_eq.2 hlow
    -- the store's own step still publishes the old level: what keeps it quiet is the exception level
    rcases Nat.eq_or_lt_of_le hjk with rfl | hlt
    · obtain ⟨write, hwrite⟩ := hstores
      exact Machine.delivery_ne_interrupt_of_stores hlevel hwrite
    · obtain ⟨i, rfl⟩ : ∃ i, k = i + 1 := ⟨k - 1, by omega⟩
      refine Machine.delivery_ne_interrupt_of_low (hrun.lineFresh hk (.inl (by omega))) ?_
        (hrun.step _ hk) hquiet.lines
      rw [hquiet.sources i (by omega) (by omega)]
      exact hrun.pending_eq_false hk hquiet hlow' i (by omega) (by omega)

/-- Three instructions of the standard machine, whose line is up to date at the start. -/
theorem line_follows_controller_initial : ∃ s' b e, (initial .standard none).run 3 = .ok s' ∧
    (initial .standard none).Instructions 3 b e ∧
    ∀ i < 3, (b i).LineFresh ∧ (b i).Publishes (b i).intc.pending (e i) := by
  obtain ⟨s', hs'⟩ := exists_run_of_bounded (s := initial .standard none) (n := 3)
    Timer.bounded_initial (by decide)
  have hfresh : (initial .standard none).machine.LineFresh := ⟨nofun, fun h => absurd rfl h⟩
  obtain ⟨b, e, hrun, hline, -⟩ := line_follows_controller hs'
  exact ⟨s', b, e, hs', hrun, fun i hi => hline i hi (.inr hfresh)⟩

end Simulation

end R5900
