import R5900.Proofs.Bus.WordRead
import R5900.Proofs.Execute.Delivery
import R5900.Proofs.Register
import R5900.Proofs.SystemControl.ExceptionReturn

/-!
# Taken branches and returns

All that the steps of a taken branch and of a return from an exception do, and what it takes to
execute a branch again: by then it has written its link register, so it must not read that.

* `Instruction.readsLink`: the branch reads the register that it links to. To write that register
  again changes nothing (`Instruction.registers_link_link`), and a branch that does not read it goes
  where it went (`Instruction.transfer_link`).
* `SystemControl.Quiet`: the lines let no interrupt through at the end of the next step.
* `Machine.step_of_branch` and `Machine.step_of_return`: the two steps, if they are quiet. Neither
  changes the bus, not even by fetching (`Machine.Executes.bus_eq`).
-/

namespace R5900

namespace Instruction

variable {i : Instruction} {pc target : UInt32} {c c' : Core}

/-! ## Link registers -/

/-- Whether the instruction reads the register that it links to. -/
def readsLink : Instruction → Bool
  | .jumpLinkRegister rd rs => rd = rs
  | .branchLink _ _ rs _ => rs = .ra
  | _ => false

theorem registers_link_congr (h : c'.registers = c.registers) :
    (i.link pc c').registers = (i.link pc c).registers := by
  unfold link
  split
  case h_4 => exact h
  all_goals exact Core.registers_setDouble_congr _ h _

/-- To write the link register again changes nothing. -/
theorem registers_link_link (i : Instruction) (pc : UInt32) (c : Core) :
    (i.link pc (i.link pc c)).registers = (i.link pc c).registers := by
  cases i with
  | jumpLinkRegister rd rs => exact congrArg (·.registers) (c.setDouble_setDouble rd _ _)
  | jump link target =>
    cases link with
    | true => exact congrArg (·.registers) (c.setDouble_setDouble .ra _ _)
    | false => rfl
  | branchLink test likely rs offset => exact congrArg (·.registers) (c.setDouble_setDouble .ra _ _)
  | _ => rfl

/-- Of the core, an instruction changes only its link register when it links. -/
theorem link_eq (i : Instruction) (pc : UInt32) (c : Core) :
    i.link pc c = { c with registers := (i.link pc c).registers } := by
  unfold link
  split
  case h_4 => rfl
  all_goals
    simp only [Core.setWord, Core.setDouble, Core.setQuad]
    split <;> rfl

/-- Where a branch goes depends on the general registers and the float unit only. -/
theorem transfer_congr (hregisters : c'.registers = c.registers) (hfloat : c'.float = c.float)
    (h : i.transfer pc c = .branch target) : i.transfer pc c' = .branch target := by
  rw [← h]
  unfold transfer
  cases i with
  | exceptionReturn => cases h
  | _ => simp only [Core.word_congr _ hregisters, Core.double_congr _ hregisters, hfloat]

/-- A branch that does not read its link register goes where it goes before it has linked. -/
theorem transfer_link (hlink : i.readsLink = false) :
    i.transfer pc (i.link pc c) = i.transfer pc c := by
  unfold transfer
  cases i with
  | jumpLinkRegister rd rs =>
    have hne : rd ≠ rs := of_decide_eq_false (p := rd = rs) hlink
    simp only [link, Core.word, Core.setWord, c.double_setDouble_of_ne hne]
  | branchLink test likely rs offset =>
    have hne : rs ≠ Gpr.ra := of_decide_eq_false (p := rs = Gpr.ra) hlink
    simp only [link, Core.setWord, c.double_setDouble_of_ne hne.symm]
  | _ => rfl

/-- An instruction that transfers control raises nothing. -/
theorem not_raises_of_transfer (h : i.transfer pc c ≠ .next) (e : Exception) :
    ¬Raises c' i e := by
  intro hraises
  cases hraises <;> exact h rfl

end Instruction

/-! ## Lines -/

namespace SystemControl

variable (s : SystemControl)

/-- No line that is let through is latched once the next cycle is counted. -/
def Quiet : Prop := (s.countCycles 1).latched &&& s.status.lines = 0

theorem latched_countCycles (cycles : UInt32) : (s.countCycles cycles).latched =
    if s.reachesCompare cycles then s.latched ||| (1 <<< Line.timer.position) else s.latched := by
  rw [countCycles, apply_ite latched]
  rfl

@[simp] theorem lines_status_exceptionReturn :
    s.exceptionReturn.2.status.lines = s.status.lines := by
  unfold exceptionReturn
  split <;> rw [status_setStatus] <;> exact putBit32_and false (by decide)

variable {s}

theorem Quiet.not_admits (h : s.Quiet) : ¬(s.countCycles 1).Admits := by
  intro hadmits
  refine hadmits.line ?_
  rw [status_countCycles]
  exact h

/-- Returning from an exception does not make a line interrupt. -/
theorem Quiet.exceptionReturn (h : s.Quiet) : s.exceptionReturn.2.Quiet := by
  have hcompare : s.exceptionReturn.2.reachesCompare 1 = s.reachesCompare 1 := by
    rw [reachesCompare, reachesCompare, get_exceptionReturn_of_ne _ (by decide),
      get_exceptionReturn_of_ne _ (by decide)]
  rw [Quiet, latched_countCycles, hcompare, latched_exceptionReturn, ← latched_countCycles,
    lines_status_exceptionReturn]
  exact h

end SystemControl

/-! ## Taken branches and returns -/

namespace Machine

variable {m m₁ : Machine} {word : UInt32}

theorem ne_next_of_branch (h : m.transferOf word = .branch target) :
    m.transferOf word ≠ .next := by
  rw [h]
  exact nofun

/-- If fetching gives an instruction that transfers control, the attempt executes it. -/
theorem exists_executes_of_transfer (haligned : Width.word.bytes ∣ m.core.pc.toNat)
    (hread : (Machine.read .word m.core.pc).run m = .done word m₁)
    (htransfer : m.transferOf word ≠ .next) : ∃ next m₂, m.Executes word m₁ next m₂ := by
  refine exists_executes (fun e hrefuses => ?_) hread
  cases hrefuses with
  | fetch hpc => exact hpc haligned
  | instruction _ hread' hraises =>
    rw [hread] at hread'
    cases hread'
    exact Instruction.not_raises_of_transfer htransfer e hraises

/-- A report of the memory controller hub is no instruction that transfers control. -/
theorem transferOf_report (m : Machine) : m.transferOf Rdram.report = .next := by
  have hdecode : Instruction.decode Rdram.report = .unknown Rdram.report := by decide
  rw [transferOf, hdecode]
  rfl

theorem core_control_fetched (m : Machine) (word : UInt32) :
    (fetchedCore m.entering.core m.core.isBranching word).control = m.core.control := by
  obtain ⟨c, hentering, -, hcontrol, -⟩ := m.entering_eq
  rw [fetchedCore_control, hentering, hcontrol]

namespace Executes

variable {m₂ : Machine} {next target : UInt32} (h : m.Executes word m₁ next m₂)
include h

/-- Fetching an instruction that transfers control leaves the bus as it was. -/
theorem bus_eq (htransfer : m.transferOf word ≠ .next) : m₁.bus = m.bus := by
  refine bus_of_read h.read fun heq => htransfer ?_
  rw [heq, transferOf_report]

/-- All that a taken branch does. -/
theorem of_branch (hbranch : m.transferOf word = .branch target) :
    next = m.core.pc + 4 ∧ m₂.bus = m.bus ∧
      m₂.core = ((Instruction.decode word).link m.core.pc
        (fetchedCore m.entering.core m.core.isBranching word)).branchTo target := by
  have htransfer : (Instruction.decode word).transfer m.core.pc m.core = .branch target := hbranch
  have hbus := h.bus_eq (ne_next_of_branch hbranch)
  obtain ⟨journal, hcompletes⟩ := h.completes
  have heffect := hcompletes.effect
  rw [Instruction.Effect, transfer_fetched, htransfer] at heffect
  obtain ⟨hnext, rfl⟩ := heffect
  exact ⟨hnext, hbus, rfl⟩

/-- All that a return from an exception does. -/
theorem of_resume (hresume : m.transferOf word = .resume target) :
    next = target ∧ m₂.bus = m.bus ∧
      m₂.core = { fetchedCore m.entering.core m.core.isBranching word with
        control := m.core.control.exceptionReturn.2 } := by
  have htransfer : (Instruction.decode word).transfer m.core.pc m.core = .resume target := hresume
  have hbus := h.bus_eq (by rw [hresume]; exact nofun)
  obtain ⟨journal, hcompletes⟩ := h.completes
  have heffect := hcompletes.effect
  rw [Instruction.Effect, transfer_fetched, htransfer] at heffect
  obtain ⟨hnext, rfl⟩ := heffect
  exact ⟨hnext, hbus, by rw [← core_control_fetched m word]⟩

end Executes

theorem fetchedCore_of_idle (h : m.core.isBranching = false) (word : UInt32) :
    fetchedCore m.entering.core m.core.isBranching word = { m.core with current := word } := by
  rw [entering, h]
  rfl

/-- The machine after an instruction that transfers control: a taken branch in a delay slot goes on
at the target of the branch before it. -/
theorem moved_next (m m' : Machine) :
    m.moved { m' with core.pc := m.core.pc + 4 } = { m' with core.pc := m.core.flow.2 } := by
  unfold moved Core.flow
  split <;> rfl

/-! ## Steps without interrupts -/

/-- The end of a step that takes no interrupt. -/
theorem finished_of_quiet (h : m.core.control.Quiet) : m.finished = m.countCycle.settleMode := by
  apply finished_of_not_due
  rw [← Bool.not_eq_true, SystemControl.interruptDue_publish]
  exact h.not_admits

/-- The step of a taken branch. -/
theorem step_of_branch {target : UInt32} (haligned : Width.word.bytes ∣ m.core.pc.toNat)
    (hread : (Machine.read .word m.core.pc).run m = .done word m₁)
    (hbranch : m.transferOf word = .branch target) (hquiet : m.core.control.Quiet) :
    ∃ t, m.step = .ok t ∧ t.bus = m.bus ∧ t.core =
      { ((Instruction.decode word).link m.core.pc
          (fetchedCore m.entering.core m.core.isBranching word)).branchTo target with
        pc := m.core.flow.2, control := (m.core.control.countCycles 1).publish
        mode := t.core.mode } := by
  obtain ⟨next, m₂, h⟩ :=
    exists_executes_of_transfer haligned hread (ne_next_of_branch hbranch)
  obtain ⟨rfl, hbus, hcore⟩ := h.of_branch hbranch
  have hcontrol : m₂.core.control = m.core.control := by
    rw [hcore, Instruction.link_eq]
    exact m.core_control_fetched word
  have hstep : m.step = .ok { m₂ with core.pc := m.core.flow.2 }.countCycle.settleMode := by
    rw [step_of_done h.attempt, moved_next]
    exact congrArg Except.ok (finished_of_quiet (show m₂.core.control.Quiet from hcontrol ▸ hquiet))
  refine ⟨_, hstep, hbus, ?_⟩
  rw [← hcontrol, ← hcore]
  rfl

/-- The step of a return from an exception, outside a delay slot. -/
theorem step_of_return (haligned : Width.word.bytes ∣ m.core.pc.toNat)
    (hread : (Machine.read .word m.core.pc).run m = .done word m₁)
    (hreturn : Instruction.decode word = .exceptionReturn) (hidle : m.core.isBranching = false)
    (hquiet : m.core.control.Quiet) :
    ∃ t, m.step = .ok t ∧ t.bus = m.bus ∧ t.core = { m.core with
      pc := m.core.control.exceptionReturn.1, current := word, mode := t.core.mode
      control := (m.core.control.exceptionReturn.2.countCycles 1).publish } := by
  have hresume : m.transferOf word = .resume m.core.control.exceptionReturn.1 := by
    rw [transferOf, hreturn]
    rfl
  obtain ⟨next, m₂, h⟩ :=
    exists_executes_of_transfer haligned hread (by rw [hresume]; exact nofun)
  obtain ⟨rfl, hbus, hcore⟩ := h.of_resume hresume
  rw [fetchedCore_of_idle hidle] at hcore
  have hquiet' : m₂.core.control.Quiet := by
    rw [hcore]
    exact hquiet.exceptionReturn
  have hstep : m.step = .ok
      { m₂ with core.pc := m.core.control.exceptionReturn.1 }.countCycle.settleMode := by
    rw [step_of_done h.attempt, moved, if_neg (by rw [hidle]; exact Bool.false_ne_true)]
    exact congrArg Except.ok (finished_of_quiet hquiet')
  refine ⟨_, hstep, hbus, ?_⟩
  rw [settleMode, countCycle_core, hcore]

end Machine

end R5900
