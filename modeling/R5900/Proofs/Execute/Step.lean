import R5900.Execute.Step
import R5900.Proofs.Execute.Instruction
import R5900.Proofs.SystemControl

/-!
# Steps of the processor

A step takes the pending branch out of the core, attempts the instruction at the program counter,
and then either delivers the exception that was raised or moves on; the end of a step may deliver
an interrupt.

* `Machine.Refuses m e`: fetching, or else the instruction, is meant to raise the exception `e`.
* `Machine.attempt_settles`: an attempt either raises an exception that it is meant to raise, and
  has done no more than fetch, or executes an instruction; and then nothing is meant to be raised
  (`Machine.Executes.quiet`).
* `Machine.step_of_raised` and `Machine.step_of_done`: a step in terms of its attempt. It follows
  what a step can do (`Machine.step_cases`), and that it never faults and changes the bus by
  accesses only (`Machine.step_eq_ok`).
-/

namespace R5900

namespace Machine

open Exec

/-! ## The ends of a step -/

/-- The machine at the handler of an exception. -/
def delivered (e : Exception) (pc : UInt32) (inDelaySlot : Bool) (m : Machine) : Machine :=
  { m with
    core := { m.core.cancelBranch with
      control := m.core.control.enter e pc inDelaySlot, pc := m.core.control.handler e }
    journal := m.journal.add (exceptionNote e pc inDelaySlot (m.core.control.handler e)) }

@[simp] theorem control_delivered (e : Exception) (pc : UInt32) (inDelaySlot : Bool)
    (m : Machine) :
    (m.delivered e pc inDelaySlot).core.control = m.core.control.enter e pc inDelaySlot :=
  rfl

theorem deliver_eq_ok (e : Exception) (pc : UInt32) (inDelaySlot : Bool) (m : Machine) :
    m.deliver e pc inDelaySlot = .ok (m.delivered e pc inDelaySlot) := by
  rw [deliver, SystemControl.raise_eq_ok]
  rfl

/-- The machine after an interrupt, if one is due. -/
def interrupted (m : Machine) : Machine :=
  if m.core.control.interruptDue then m.delivered .interrupt m.core.pc m.core.isBranching else m

/-- The machine at the end of a step. -/
def finished (m : Machine) : Machine := m.countCycle.interrupted.settleMode

theorem finishStep_eq_ok (m : Machine) : m.finishStep = .ok m.finished := by
  have hinterrupt : m.countCycle.deliverInterrupt = .ok m.countCycle.interrupted := by
    unfold deliverInterrupt interrupted
    split
    · exact deliver_eq_ok ..
    · rfl
  rw [finishStep, hinterrupt]
  rfl

@[simp] theorem bus_interrupted (m : Machine) : m.interrupted.bus = m.bus := by
  unfold interrupted
  split <;> rfl

@[simp] theorem bus_finished (m : Machine) : m.finished.bus = m.bus :=
  bus_interrupted m.countCycle

/-! ## Fetching -/

theorem read_withCore {w : Width} {a : UInt32} {m m' : Machine} {v : w.Value} {c : Core}
    (h : (Machine.read w a).run m = .done v m') (hc : c.scratchpad = m.core.scratchpad) :
    (Machine.read w a).run { m with core := c } = .done v { m' with core := c } := by
  obtain ⟨core, bus, journal⟩ := m
  simp only [run, Machine.read] at h ⊢
  cases hloc : Location.ofVirtual a with
  | scratchpad offset =>
    simp only [hloc] at h ⊢
    rw [hc]
    cases hload : core.scratchpad.load w offset with
    | error fault => rw [hload] at h; cases h
    | ok value => rw [hload] at h; cases h; rfl
  | bus address =>
    simp only [hloc] at h ⊢
    cases hread : bus.read w address with
    | error fault => rw [hread] at h; cases h
    | ok r => rw [hread] at h; cases h; rfl

/-- The machine in which a step fetches: the pending branch is taken out of the core. -/
def entering (m : Machine) : Machine :=
  if m.core.isBranching then { m with core := m.core.cancelBranch } else m

/-- The core that remembers a fetched word. -/
def fetchedCore (c : Core) (inDelaySlot : Bool) (word : UInt32) : Core :=
  if inDelaySlot then { c with next := word } else { c with current := word }

@[simp] theorem fetchedCore_pc (c : Core) (inDelaySlot : Bool) (word : UInt32) :
    (fetchedCore c inDelaySlot word).pc = c.pc := by
  unfold fetchedCore
  split <;> rfl

@[simp] theorem fetchedCore_control (c : Core) (inDelaySlot : Bool) (word : UInt32) :
    (fetchedCore c inDelaySlot word).control = c.control := by
  unfold fetchedCore
  split <;> rfl

/-- What a step attempts: to fetch and execute the instruction at the program counter. -/
def attempt (m : Machine) : Outcome Unit :=
  (executeAt m.core.pc m.core.isBranching).run m.entering

theorem entering_eq (m : Machine) :
    ∃ c, m.entering = { m with core := c } ∧ c.scratchpad = m.core.scratchpad ∧
      c.control = m.core.control ∧ c.pc = m.core.pc := by
  unfold entering
  split
  · exact ⟨_, rfl, rfl, rfl, rfl⟩
  · exact ⟨_, rfl, rfl, rfl, rfl⟩

theorem and_three_eq_zero_iff (pc : UInt32) : pc &&& 3 = 0 ↔ Width.word.bytes ∣ pc.toNat := by
  rw [← isAligned_iff, isAligned, decide_eq_true_iff]
  rfl

theorem run_fetch {pc : UInt32} {m m' : Machine} {word : UInt32} (inDelaySlot : Bool)
    (hpc : Width.word.bytes ∣ pc.toNat) (h : (Machine.read .word pc).run m = .done word m') :
    (fetch pc inDelaySlot).run m =
      .done word { m' with core := fetchedCore m'.core inDelaySlot word } := by
  rw [fetch, if_pos ((and_three_eq_zero_iff pc).2 hpc)]
  exact run_bind_done h

theorem run_fetch_of_not {pc : UInt32} (inDelaySlot : Bool) (m : Machine)
    (hpc : ¬Width.word.bytes ∣ pc.toNat) :
    (fetch pc inDelaySlot).run m = .raised (.addressErrorLoad pc) m := by
  rw [fetch, if_neg (fun h => hpc ((and_three_eq_zero_iff pc).1 h))]
  rfl

/-! ## Attempts -/

/-- Fetching at the program counter, or else the instruction there, is meant to raise the
exception. -/
inductive Refuses (m : Machine) : Exception → Prop
  | fetch (h : ¬Width.word.bytes ∣ m.core.pc.toNat) : Refuses m (.addressErrorLoad m.core.pc)
  | instruction {word : UInt32} {m₁ : Machine} {e : Exception}
      (haligned : Width.word.bytes ∣ m.core.pc.toNat)
      (hread : (Machine.read .word m.core.pc).run m = .done word m₁)
      (hraises : Raises m.core (Instruction.decode word) e) : Refuses m e

/-- An attempt that fetches the word `word`, the machine after reading it being `m₁`, and executes
its instruction, which gives the machine `m₂` and the address `next`. -/
structure Executes (m : Machine) (word : UInt32) (m₁ : Machine) (next : UInt32) (m₂ : Machine) :
    Prop where
  aligned : Width.word.bytes ∣ m.core.pc.toNat
  read : (Machine.read .word m.core.pc).run m = .done word m₁
  fetched : m.bus.Accessed m₁.bus
  executed : ∃ journal, ((Instruction.decode word).execute m.core.pc).run
    ⟨fetchedCore m.entering.core m.core.isBranching word, m₁.bus, journal⟩ = .done next m₂
  attempt : m.attempt = .done () { m₂ with core.pc := next }

theorem registers_entering (m : Machine) : m.entering.core.registers = m.core.registers := by
  unfold entering
  split <;> rfl

theorem registers_fetched (m : Machine) (word : UInt32) :
    (fetchedCore m.entering.core m.core.isBranching word).registers = m.core.registers := by
  unfold entering fetchedCore
  cases m.core.isBranching <;> rfl

namespace Executes

variable {m m₁ m₂ : Machine} {word next : UInt32} (h : m.Executes word m₁ next m₂)
include h

theorem completes : ∃ journal, (Instruction.decode word).Completes m.core.pc
    ⟨fetchedCore m.entering.core m.core.isBranching word, m₁.bus, journal⟩ next m₂ := by
  obtain ⟨journal, hrun⟩ := h.executed
  refine ⟨journal, ?_⟩
  rcases Instruction.execute_settles (Instruction.decode word) m.core.pc _
    (Instruction.decode_shiftsFit word) with ⟨e, he, -⟩ | ⟨next', m', hdone, hcompletes⟩
  · rw [hrun] at he
    cases he
  · rw [hrun] at hdone
    cases hdone
    exact hcompletes

/-- What is executed is not meant to raise anything. -/
theorem quiet (e : Exception) : ¬m.Refuses e := by
  intro hrefuses
  cases hrefuses with
  | fetch hpc => exact hpc h.aligned
  | instruction _ hread hraises =>
    rw [h.read] at hread
    cases hread
    obtain ⟨journal, hcompletes⟩ := h.completes
    exact hcompletes.quiet e (hraises.congr (m.registers_fetched word))

end Executes

/-- The word zero is an instruction that only moves on. -/
theorem run_execute_zero (pc : UInt32) (m : Machine) :
    ((Instruction.decode 0).execute pc).run m = .done (pc + 4) m := by
  have hzero : Instruction.decode 0 = .shift .sll .zero .zero 0 := by decide
  rw [hzero]
  rfl

theorem run_executeAt_zero {pc : UInt32} {inDelaySlot : Bool} {m m' : Machine}
    (h : (fetch pc inDelaySlot).run m = .done 0 m') :
    (executeAt pc inDelaySlot).run m = .done () { m' with core.pc := pc + 4 } :=
  run_bind_done h

theorem run_executeAt {pc : UInt32} {inDelaySlot : Bool} {m : Machine} {word : UInt32} {core : Core}
    {bus : Bus} {journal : Journal} (hword : word ≠ 0)
    (h : (fetch pc inDelaySlot).run m = .done word ⟨core, bus, journal⟩) :
    (executeAt pc inDelaySlot).run m = (Instruction.decode word).interpret.run
      ⟨core, bus, journal.add (executingNote pc (Instruction.decode word))⟩ := by
  refine (run_bind_done h).trans ?_
  simp only [if_neg hword]
  rfl

/-- The machine `m'` has the bus, the general registers and the control registers of the machine
`m`, but for what reading the word at the program counter may do to the bus. -/
structure FetchesOnly (m m' : Machine) : Prop where
  control : m'.core.control = m.core.control
  registers : m'.core.registers = m.core.registers
  bus : m'.bus = m.bus ∨ ∃ word m₁, Width.word.bytes ∣ m.core.pc.toNat ∧
    (Machine.read .word m.core.pc).run m = .done word m₁ ∧ m'.bus = m₁.bus

theorem FetchesOnly.accessed {m m' : Machine} (h : m.FetchesOnly m') : m.bus.Accessed m'.bus := by
  rcases h.bus with hbus | ⟨word, m₁, haligned, hread, hbus⟩
  · rw [hbus]
    exact .refl
  · obtain ⟨word', m₁', hread', -, haccessed⟩ := read_eq_done .word haligned m
    rw [hread] at hread'
    cases hread'
    rw [hbus]
    exact haccessed

/-- An attempt raises an exception that it is meant to raise, or executes an instruction. -/
theorem attempt_settles (m : Machine) :
    (∃ e m', m.attempt = .raised e m' ∧ m.Refuses e ∧ m.FetchesOnly m') ∨
    ∃ word m₁ next m₂, m.Executes word m₁ next m₂ := by
  obtain ⟨c, hentering, hscratchpad, hcontrol, hpc⟩ := m.entering_eq
  have hc : m.entering.core = c := by rw [hentering]
  by_cases haligned : Width.word.bytes ∣ m.core.pc.toNat
  · obtain ⟨word, m₁, hread, -, hbus⟩ := read_eq_done .word haligned m
    have hfetch : (fetch m.core.pc m.core.isBranching).run m.entering =
        .done word ⟨fetchedCore c m.core.isBranching word, m₁.bus, m₁.journal⟩ := by
      rw [hentering]
      exact run_fetch m.core.isBranching haligned (read_withCore hread hscratchpad)
    by_cases hword : word = 0
    · subst hword
      refine .inr ⟨0, m₁, m.core.pc + 4, ⟨fetchedCore c m.core.isBranching 0, m₁.bus, m₁.journal⟩,
        haligned, hread, hbus, ⟨m₁.journal, ?_⟩, run_executeAt_zero hfetch⟩
      rw [hc]
      exact run_execute_zero _ _
    · have hrun := run_executeAt hword hfetch
      generalize m₁.journal.add (executingNote m.core.pc (Instruction.decode word)) = journal
        at hrun
      rw [Instruction.run_interpret, fetchedCore_pc, hpc] at hrun
      rcases Instruction.execute_settles (Instruction.decode word) m.core.pc
        ⟨fetchedCore c m.core.isBranching word, m₁.bus, journal⟩
        (Instruction.decode_shiftsFit word) with ⟨e, he, hraises⟩ | ⟨next, m₂, hdone, -⟩
      · refine .inl ⟨e, _, hrun.trans (run_bind_raised he), ?_, ?_, ?_,
          .inr ⟨word, m₁, haligned, hread, rfl⟩⟩
        · rw [← hc] at hraises
          exact .instruction haligned hread (hraises.congr (m.registers_fetched word).symm)
        · rw [fetchedCore_control, hcontrol]
        · rw [← hc]
          exact m.registers_fetched word
      · refine .inr ⟨word, m₁, next, m₂, haligned, hread, hbus, ⟨journal, ?_⟩,
          hrun.trans (run_bind_done hdone)⟩
        rwa [hc]
  · refine .inl ⟨_, _, run_bind_raised (run_fetch_of_not _ _ haligned), .fetch haligned, ?_, ?_,
      .inl ?_⟩
    · rw [hc]
      exact hcontrol
    · exact m.registers_entering
    · rw [hentering]

/-- An attempt raises an exception and leaves the control registers alone, or executes an
instruction. -/
theorem attempt_cases (m : Machine) :
    (∃ e m', m.attempt = .raised e m' ∧ m'.core.control = m.core.control ∧
      m.bus.Accessed m'.bus) ∨
    ∃ word m₁ next m₂, m.Executes word m₁ next m₂ := by
  rcases m.attempt_settles with ⟨e, m', hattempt, -, hfetches⟩ | h
  · exact .inl ⟨e, m', hattempt, hfetches.control, hfetches.accessed⟩
  · exact .inr h

/-- If fetching gives a word and nothing is meant to be raised, the attempt executes its
instruction. -/
theorem exists_executes {m m₁ : Machine} {word : UInt32} (hquiet : ∀ e, ¬m.Refuses e)
    (hread : (Machine.read .word m.core.pc).run m = .done word m₁) :
    ∃ next m₂, m.Executes word m₁ next m₂ := by
  rcases m.attempt_settles with ⟨e, -, -, hrefuses, -⟩ | ⟨word', m₁', next, m₂, h⟩
  · exact absurd hrefuses (hquiet e)
  · have hread' := h.read
    rw [hread] at hread'
    cases hread'
    exact ⟨next, m₂, h⟩

/-! ## Steps -/

/-- The machine after an attempt that is done, at the target of the branch whose delay slot it was
in. -/
def moved (m m' : Machine) : Machine :=
  if m.core.isBranching then { m' with core.pc := m.core.branchTarget } else m'

@[simp] theorem bus_moved (m m' : Machine) : (m.moved m').bus = m'.bus := by
  unfold moved
  split <;> rfl

theorem step_of_raised {m m' : Machine} {e : Exception} (h : m.attempt = .raised e m') :
    m.step = .ok (m'.delivered e m.core.pc m.core.isBranching).finished := by
  have hrun : executeAt m.core.pc m.core.isBranching m.entering = .raised e m' := h
  unfold entering at hrun
  simp only [step, hrun, deliver_eq_ok]
  exact finishStep_eq_ok _

theorem step_of_done {m m' : Machine} (h : m.attempt = .done () m') :
    m.step = .ok (m.moved m').finished := by
  have hrun : executeAt m.core.pc m.core.isBranching m.entering = .done () m' := h
  unfold entering at hrun
  simp only [step, hrun]
  exact finishStep_eq_ok _

/-- What a step can do: take an exception that it is meant to raise, or execute an instruction and
move on. -/
theorem step_cases {m m' : Machine} (h : m.step = .ok m') :
    (∃ e m₁, m.Refuses e ∧ m.FetchesOnly m₁ ∧
      m' = (m₁.delivered e m.core.pc m.core.isBranching).finished) ∨
    ∃ word m₁ next m₂, m.Executes word m₁ next m₂ ∧
      m' = (m.moved { m₂ with core.pc := next }).finished := by
  rcases m.attempt_settles with ⟨e, m₁, hattempt, hrefuses, hfetches⟩ | ⟨word, m₁, next, m₂, hm₂⟩
  · rw [step_of_raised hattempt] at h
    exact .inl ⟨e, m₁, hrefuses, hfetches, (Except.ok.inj h).symm⟩
  · rw [step_of_done hm₂.attempt] at h
    exact .inr ⟨word, m₁, next, m₂, hm₂, (Except.ok.inj h).symm⟩

/-- A step at a program counter that is not aligned leaves the bus alone. -/
theorem bus_of_step_misaligned {m m' : Machine} (hpc : ¬Width.word.bytes ∣ m.core.pc.toNat)
    (h : m.step = .ok m') : m'.bus = m.bus := by
  rcases step_cases h with ⟨e, m₁, -, hfetches, rfl⟩ | ⟨word, m₁, next, m₂, hexecutes, -⟩
  · rw [bus_finished]
    rcases hfetches.bus with hbus | ⟨word, m₂, haligned, -, -⟩
    · exact hbus
    · exact absurd haligned hpc
  · exact absurd hexecutes.aligned hpc

/-- **A step never faults, and changes the bus by accesses only.** -/
theorem step_eq_ok (m : Machine) : ∃ m', m.step = .ok m' ∧ m.bus.Accessed m'.bus := by
  rcases m.attempt_cases with ⟨e, m', hattempt, -, hbus⟩ | ⟨word, m₁, next, m₂, h⟩
  · refine ⟨_, step_of_raised hattempt, ?_⟩
    rw [bus_finished]
    exact hbus
  · obtain ⟨journal, hcompletes⟩ := h.completes
    refine ⟨_, step_of_done h.attempt, ?_⟩
    rw [bus_finished, bus_moved]
    exact h.fetched.trans hcompletes.accessed

end Machine

end R5900
