import R5900.Proofs.Execute.Store

/-!
# Interrupt lines along a step

The line of the interrupt controller is latched and released from outside only: no instruction
changes it, and neither do counting, publishing and taking an exception. So a step publishes the
level that the line had before it, and decides about an interrupt by that level
(`Machine.step_publishes`). What the step delivers follows from the registers that its instruction
leaves (`Machine.Executes.delivery_eq`).
-/

namespace R5900

/-- Whether a line is latched. -/
def SystemControl.latches (s : SystemControl) (line : Line) : Bool :=
  testBit32 s.latched line.position

/-- Whether the cause register shows a line as pending. -/
def Cause.pends (c : Cause) (line : Line) : Bool := testBit32 c.lines line.position

theorem testBit32_lineMask (line : Line) : testBit32 lineMask line.position = true := by
  cases line <;> decide

/-! ## Lines of the control registers -/

namespace SystemControl

variable (s : SystemControl)

/-- Publishing shows which lines are latched. -/
theorem pends_publish (line : Line) : s.publish.cause.pends line = s.latches line := by
  rw [Cause.pends, cause_publish, Cause.lines_setLines, testBit32_and, testBit32_lineMask,
    Bool.and_true]
  rfl

theorem testBit32_latched_request (line : Line) (p : UInt32) :
    testBit32 (s.request line).latched p =
      (testBit32 s.latched p || decide (line.position.toNat % 32 = p.toNat % 32)) := by
  rw [request, testBit32_or, testBit32_one_shiftLeft]

theorem testBit32_latched_release (line : Line) (p : UInt32) :
    testBit32 (s.release line).latched p =
      (testBit32 s.latched p && !decide (line.position.toNat % 32 = p.toNat % 32)) := by
  rw [release, testBit32_and, testBit32_not, testBit32_one_shiftLeft]

@[simp] theorem latches_request_self (line : Line) : (s.request line).latches line = true := by
  rw [latches, testBit32_latched_request, decide_eq_true rfl, Bool.or_true]

@[simp] theorem latches_release_self (line : Line) : (s.release line).latches line = false := by
  rw [latches, testBit32_latched_release, decide_eq_true rfl, Bool.not_true, Bool.and_false]

/-- The timer line does not concern the line of the interrupt controller. -/
theorem latches_request_timer : (s.request .timer).latches .int0 = s.latches .int0 := by
  rw [latches, testBit32_latched_request, decide_eq_false (by decide), Bool.or_false]
  rfl

theorem latches_release_timer : (s.release .timer).latches .int0 = s.latches .int0 := by
  rw [latches, testBit32_latched_release, decide_eq_false (by decide), Bool.not_false,
    Bool.and_true]
  rfl

@[simp] theorem latches_countCycles (cycles : UInt32) :
    (s.countCycles cycles).latches .int0 = s.latches .int0 := by
  unfold countCycles
  dsimp only
  split
  · exact latches_request_timer _
  · rfl

theorem latches_write (r : ControlReg) (value : UInt32) :
    (s.write r value).latches .int0 = s.latches .int0 := by
  unfold write
  split
  · rfl
  · split
    · exact latches_release_timer _
    · rfl

/-- Interrupts on a line are let through: both enable bits are set, no exception or error is being
handled, and the line is not masked. -/
structure LetsThrough (line : Line) : Prop where
  interruptEnable : s.status.interruptEnable = true
  masterEnable : s.status.masterEnable = true
  exceptionLevel : s.status.exceptionLevel = false
  errorLevel : s.status.errorLevel = false
  unmasked : testBit32 s.status.bits line.position = true

theorem LetsThrough.admits {s : SystemControl} {line : Line} (h : s.LetsThrough line)
    (hline : s.latches line = true) : s.Admits := by
  refine ⟨h.interruptEnable, h.masterEnable, h.exceptionLevel, h.errorLevel, ?_⟩
  refine and_ne_zero_of_testBit32 hline ?_
  rw [Status.lines, testBit32_and, h.unmasked, testBit32_lineMask, Bool.true_and]

end SystemControl

/-- No instruction changes the line of the interrupt controller. -/
theorem Instruction.latches_control (i : Instruction) (c : Core) :
    (i.control c).latches .int0 = c.control.latches .int0 := by
  cases i with
  | moveToControl cd rt => exact SystemControl.latches_write ..
  | exceptionReturn =>
    simp only [control, SystemControl.exceptionReturn]
    split <;> rfl
  | _ => rfl

namespace Machine

/-! ## Publishing -/

/-- The step of the machine `m`, which ends in the machine `m'`, publishes the given level of the
line of the interrupt controller: the level is what `m'` shows, and also what the control registers
show with which the step decides about an interrupt after its instruction. -/
structure Publishes (m : Machine) (level : Bool) (m' : Machine) : Prop where
  decided : ∀ m₁, m.attempt = .done () m₁ →
    (m₁.core.control.countCycles 1).publish.cause.pends .int0 = level
  shown : m'.core.control.cause.pends .int0 = level

/-- Taking an interrupt leaves the published lines alone. -/
theorem pends_interrupted (m : Machine) (line : Line) :
    m.interrupted.core.control.cause.pends line = m.core.control.cause.pends line := by
  unfold interrupted
  split
  · rw [control_delivered, Cause.pends, SystemControl.lines_cause_enter, Cause.pends]
  · rfl

/-- The end of a step shows the level of the line. -/
theorem pends_finished (m : Machine) :
    m.finished.core.control.cause.pends .int0 = m.core.control.latches .int0 := by
  refine (pends_interrupted m.countCycle .int0).trans ?_
  rw [countCycle_core, SystemControl.pends_publish, SystemControl.latches_countCycles]

theorem Executes.latches_eq {m m₁ m₂ : Machine} {word next : UInt32}
    (h : m.Executes word m₁ next m₂) :
    m₂.core.control.latches .int0 = m.core.control.latches .int0 := by
  rw [h.control_eq, Instruction.latches_control]

/-- **A step publishes the level that the line of the interrupt controller had before it**, whatever
the instruction does. -/
theorem step_publishes {m m' : Machine} (h : m.step = .ok m') :
    m.Publishes (m.core.control.latches .int0) m' := by
  refine ⟨fun m₁ hattempt => ?_, ?_⟩
  · rcases m.attempt_settles with ⟨e, m₂, hraised, -, -⟩ | ⟨word, m₂, next, m₃, hexecutes⟩
    · rw [hraised] at hattempt
      cases hattempt
    · rw [hexecutes.attempt] at hattempt
      cases hattempt
      rw [SystemControl.pends_publish, SystemControl.latches_countCycles]
      exact hexecutes.latches_eq
  · rcases step_cases h with ⟨e, m₁, -, hfetches, rfl⟩ | ⟨word, m₁, next, m₂, hexecutes, rfl⟩
    · rw [pends_finished, control_delivered, SystemControl.latches, SystemControl.latched_enter,
        hfetches.control, SystemControl.latches]
    · rw [pends_finished, control_moved]
      exact hexecutes.latches_eq

/-! ## Interrupts -/

/-- What a step is meant to raise is no interrupt. -/
theorem Refuses.ne_interrupt {m : Machine} {e : Exception} (h : m.Refuses e) : e ≠ .interrupt := by
  rintro rfl
  cases h with
  | instruction _ _ hraises => exact absurd (vectorOffset_of_raises hraises) (by decide)

/-- A step that raises something delivers no interrupt. -/
theorem delivery_ne_interrupt_of_refuses {m : Machine} {e : Exception} (h : m.Refuses e)
    (c : SystemControl) : m.delivery? ≠ some (.interrupt, c) := by
  rw [delivery_of_refuses h]
  intro heq
  cases heq
  exact h.ne_interrupt rfl

/-- A step that executes an instruction delivers an interrupt exactly if the control registers that
the instruction and the counter leave admit one. -/
theorem Executes.delivery_eq {m m₁ m₂ : Machine} {word next : UInt32}
    (h : m.Executes word m₁ next m₂) {s : SystemControl}
    (hs : s = ((Instruction.decode word).control m.core).countCycles 1) :
    (s.Admits → m.delivery? = some (.interrupt, s.publish)) ∧
      (¬s.Admits → m.delivery? = none) := by
  have hdelivery : m.delivery? =
      if s.publish.interruptDue then some (.interrupt, s.publish) else none := by
    rw [delivery?, h.attempt, hs, ← h.control_eq]
  rw [hdelivery, ← SystemControl.interruptDue_publish]
  exact ⟨fun hdue => if_pos hdue, fun hdue => if_neg hdue⟩

/-! ## The line of the interrupt controller -/

/-- The step executes the word `word` and raises nothing, and its instruction and the counter leave
the control registers `s`. -/
structure Leaves (m : Machine) (word : UInt32) (s : SystemControl) : Prop where
  quiet : ∀ e, ¬m.Refuses e
  fetched : ∃ m₁, (Machine.read .word m.core.pc).run m = .done word m₁
  control : s = ((Instruction.decode word).control m.core).countCycles 1

/-- If the line of the interrupt controller is latched and the registers that a step leaves let it
through, the step delivers an interrupt. -/
theorem interrupted_of_leaves {m m' : Machine} {word : UInt32} {s : SystemControl}
    (hstep : m.step = .ok m') (hleaves : m.Leaves word s) (hlets : s.LetsThrough .int0)
    (hline : m.core.control.latches .int0 = true) :
    m.delivery? = some (.interrupt, s.publish) ∧
      Takes s .interrupt (m.nextPc word) (m.transferOf word).isBranch 0x200 m' := by
  obtain ⟨hquiet, ⟨m₀, hread⟩, hs⟩ := hleaves
  have hlatches : s.latches .int0 = true := by
    rw [hs, SystemControl.latches_countCycles, Instruction.latches_control, hline]
  have hadmits : s.Admits := hlets.admits hlatches
  obtain ⟨next, m₂, h⟩ := exists_executes hquiet hread
  refine ⟨(h.delivery_eq hs).1 hadmits, ?_⟩
  rw [step_of_done h.attempt] at hstep
  cases hstep
  rw [← h.pc_eq, ← h.isBranching_eq]
  refine takes_of_admits ?_ hadmits
  rw [control_moved, h.control_eq, hs]

end Machine

end R5900
