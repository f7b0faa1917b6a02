import R5900.Proofs.Execute.Branch
import R5900.Proofs.SystemControl.ExceptionReturn
import R5900.Proofs.VirtualMemory

/-!
# Interrupts are transparent

An interrupt whose handler returns at once leaves the interrupted program as if nothing had
happened. Between an interrupt and the return from it, the device that requested it is expected to
release its line; the environment is therefore allowed to set all lines between steps
(`Machine.withLines`), and only has to keep them from interrupting again (`SystemControl.Quiet`).

* `Machine.HoldsSame`: two machines hold the same to a program.
* `Machine.step_of_interrupted`: the step of the return restores what the program held.
* `Machine.step_again`: a branch that was interrupted before its delay slot does again what it did.
* `Machine.interrupt_transparent`: both together.
-/

namespace R5900

namespace SystemControl

variable {s : SystemControl}

/-- The registers with other lines latched. -/
def withLines (s : SystemControl) (lines : UInt32) : SystemControl := { s with latched := lines }

theorem exceptionReturn_withLines (s : SystemControl) (lines : UInt32) :
    (s.withLines lines).exceptionReturn =
      (s.exceptionReturn.1, s.exceptionReturn.2.withLines lines) := by
  have hstatus : (s.withLines lines).status = s.status := rfl
  rw [exceptionReturn, exceptionReturn, hstatus]
  split <;> rfl

/-- While an interrupt is due, no exception and no error is being handled. -/
theorem levels_of_interruptDue (h : s.interruptDue = true) :
    s.status.exceptionLevel = false ∧ s.status.errorLevel = false := by
  simp only [interruptDue, Bool.and_eq_true, Bool.not_eq_true'] at h
  exact ⟨h.1.1.2, h.1.2⟩

end SystemControl

namespace Machine

variable {m : Machine} {word target : UInt32}

/-- The machine with other lines latched. -/
def withLines (m : Machine) (lines : UInt32) : Machine :=
  { m with core.control := m.core.control.withLines lines }

/-! ## The interrupted program -/

/-- To a program, the machine `m'` holds what the machine `m` holds: the same registers, but for the
cycle counter and those in which an interrupt is recorded, and the same memories and devices. -/
structure HoldsSame (m m' : Machine) : Prop where
  registers : m'.core.registers = m.core.registers
  hi : m'.core.hi = m.core.hi
  lo : m'.core.lo = m.core.lo
  shiftAmount : m'.core.shiftAmount = m.core.shiftAmount
  float : m'.core.float = m.core.float
  control : ∀ r, r ≠ .count → r ≠ .cause → r ≠ .epc →
    m'.core.control.get r = m.core.control.get r
  scratchpad : m'.core.scratchpad = m.core.scratchpad
  bus : m'.bus = m.bus

/-- The step of the machine `m` retires the word `word`, and `r` is the machine at the end of the
step, just before the step decides about an interrupt. -/
structure Retires (m : Machine) (word : UInt32) (r : Machine) : Prop where
  fetched : ∃ m₁, (Machine.read .word m.core.pc).run m = .done word m₁
  retired : ∃ m₂, m.attempt = .done () m₂ ∧ r = (m.moved m₂).countCycle

namespace Retires

variable {r : Machine} (h : m.Retires word r)
include h

theorem exists_executes : ∃ m₁ next m₂, m.Executes word m₁ next m₂ ∧
    r = (m.moved { m₂ with core.pc := next }).countCycle := by
  obtain ⟨⟨m₁, hread⟩, m₂, hattempt, rfl⟩ := h
  rcases m.attempt_settles with ⟨e, m', hraised, -, -⟩ | ⟨word', m₁', next, m₃, hexecutes⟩
  · rw [hraised] at hattempt
    cases hattempt
  · have hread' := hexecutes.read
    rw [hread] at hread'
    cases hread'
    have hdone := hexecutes.attempt
    rw [hattempt] at hdone
    cases hdone
    exact ⟨m₁, next, m₃, hexecutes, rfl⟩

theorem isBranching_eq : r.core.isBranching = (m.transferOf word).isBranch := by
  obtain ⟨m₁, next, m₂, hexecutes, rfl⟩ := h.exists_executes
  exact hexecutes.isBranching_eq

/-- If an interrupt is due, the step takes it. -/
theorem step_of_due (hdue : r.core.control.interruptDue = true) :
    m.step = .ok (r.delivered .interrupt r.core.pc r.core.isBranching).settleMode := by
  obtain ⟨-, m₂, hattempt, rfl⟩ := h
  rw [step_of_done hattempt]
  exact congrArg Except.ok (finished_of_due hdue)

/-- All that a taken branch has done when it is retired. -/
theorem of_branch (hidle : m.core.isBranching = false)
    (hbranch : m.transferOf word = .branch target) :
    r.bus = m.bus ∧ r.core =
      { ((Instruction.decode word).link m.core.pc m.core).branchTo target with
        pc := m.core.pc + 4, current := word
        control := (m.core.control.countCycles 1).publish } := by
  obtain ⟨m₁, next, ⟨core, bus, journal⟩, hexecutes, rfl⟩ := h.exists_executes
  obtain ⟨rfl, hbus, hcore⟩ := hexecutes.of_branch hbranch
  rw [fetchedCore_of_idle hidle, link_current] at hcore
  obtain rfl : core = _ := hcore
  rw [moved_next, Core.npc_of_idle hidle, Instruction.link_eq]
  exact ⟨hbus, rfl⟩

end Retires

/-- The handlers of interrupts are at aligned addresses. -/
theorem aligned_handler {s : SystemControl} (h : s.status.exceptionLevel = false) :
    Width.word.bytes ∣ (s.handler .interrupt).toNat := by
  rw [SystemControl.handler_of_outermost h, SystemControl.vectorBase]
  split <;> decide

/-- A return right after an interrupt was taken restores what the program held, and goes on where
the interrupt was taken or, if that was in a delay slot, at the instruction before. -/
theorem step_of_interrupted {r i i₁ : Machine} {lines : UInt32}
    (hdue : r.core.control.interruptDue = true)
    (hi : i = (r.delivered .interrupt r.core.pc r.core.isBranching).settleMode)
    (hread : (Machine.read .word i.core.pc).run i = .done word i₁)
    (hreturn : Instruction.decode word = .exceptionReturn)
    (hquiet : (i.withLines lines).core.control.Quiet) :
    ∃ t, (i.withLines lines).step = .ok t ∧ r.HoldsSame t ∧ t.core.isBranching = false ∧
      t.core.pc = if r.core.isBranching then r.core.pc - 4 else r.core.pc := by
  obtain ⟨hlevel, herror⟩ := SystemControl.levels_of_interruptDue hdue
  have hresumes := SystemControl.resumes_of_enter hlevel herror
    ⟨.interrupt, r.core.pc, r.core.isBranching⟩
  have hpc : i.core.pc = r.core.control.handler .interrupt := by rw [hi]; rfl
  obtain ⟨i₂, hread', -⟩ := read_congr (n := i.withLines lines) hread rfl rfl
  obtain ⟨t, hstep, hbus, hcore⟩ := step_of_return (m := i.withLines lines)
    (show _ ∣ i.core.pc.toNat by rw [hpc]; exact aligned_handler hlevel) hread' hreturn
    (by rw [hi]; rfl) hquiet
  have hcontrol : (i.withLines lines).core.control.exceptionReturn =
      ((r.core.control.enter .interrupt r.core.pc r.core.isBranching).exceptionReturn.1,
        (r.core.control.enter .interrupt r.core.pc r.core.isBranching).exceptionReturn.2.withLines
          lines) := by
    rw [← SystemControl.exceptionReturn_withLines, hi]
    rfl
  rw [hcontrol] at hcore
  refine ⟨t, hstep, ?_, ?_, ?_⟩
  · constructor
    case control =>
      intro reg hcount hcause hepc
      rw [hcore]
      dsimp only
      rw [SystemControl.get_publish_of_ne _ hcause, SystemControl.get_countCycles_of_ne _ _ hcount]
      by_cases haddress : reg = .badVAddr
      · rw [haddress]
        exact hresumes.badVAddr
      · exact hresumes.others reg hepc hcause haddress
    case bus =>
      rw [hbus, hi]
      rfl
    all_goals
      rw [hcore, hi]
      rfl
  · rw [hcore, hi]
    rfl
  · rw [hcore]
    exact hresumes.target

/-- A taken branch that was retired and is executed again, in a machine that holds what it left,
leaves the same again. -/
theorem step_again {r t : Machine} (hretires : m.Retires word r)
    (hidle : m.core.isBranching = false) (hbranch : m.transferOf word = .branch target)
    (hlink : (Instruction.decode word).readsLink = false) (hsame : r.HoldsSame t)
    (hpc : t.core.pc = m.core.pc) (hidle' : t.core.isBranching = false)
    (hquiet : t.core.control.Quiet) :
    ∃ u, t.step = .ok u ∧ r.HoldsSame u ∧ u.core.pc = r.core.pc ∧
      u.core.branchTarget = r.core.branchTarget ∧ u.core.isBranching = r.core.isBranching ∧
      u.core.delaySlot = r.core.delaySlot := by
  obtain ⟨hbus, hcore⟩ := hretires.of_branch hidle hbranch
  obtain ⟨m₁, next, m₂, hexecutes, -⟩ := hretires.exists_executes
  rw [Instruction.link_eq] at hcore
  have hregisters : t.core.registers =
      ((Instruction.decode word).link m.core.pc m.core).registers := by
    rw [hsame.registers, hcore]
    rfl
  have hfloat : t.core.float = m.core.float := by
    rw [hsame.float, hcore]
    rfl
  have hscratchpad : t.core.scratchpad = m.core.scratchpad := by
    rw [hsame.scratchpad, hcore]
    rfl
  obtain ⟨t₁, hread, -⟩ := read_congr hexecutes.read hscratchpad (hsame.bus.trans hbus)
  rw [← hpc] at hread
  have hagain : t.transferOf word = .branch target := by
    rw [transferOf, hpc]
    refine Instruction.transfer_congr hregisters ?_
      ((Instruction.transfer_link hlink).trans hbranch)
    rw [hfloat, Instruction.link_eq]
  obtain ⟨u, hstep, hbus', hcore'⟩ :=
    step_of_branch (hpc ▸ hexecutes.aligned) hread hagain hquiet
  rw [fetchedCore_of_idle hidle', link_current, Core.npc_of_idle hidle', Instruction.link_eq, hpc]
    at hcore'
  refine ⟨u, hstep, ?_, ?_, ?_, ?_, ?_⟩
  · constructor
    case registers =>
      rw [hcore', hcore]
      exact (Instruction.registers_link_congr hregisters).trans (Instruction.registers_link_link ..)
    case control =>
      intro reg hcount hcause hepc
      rw [hcore', ← hsame.control reg hcount hcause hepc]
      dsimp only
      rw [SystemControl.get_publish_of_ne _ hcause, SystemControl.get_countCycles_of_ne _ _ hcount]
    case bus => rw [hbus', hsame.bus]
    case hi => rw [hcore', ← hsame.hi]; rfl
    case lo => rw [hcore', ← hsame.lo]; rfl
    case shiftAmount => rw [hcore', ← hsame.shiftAmount]; rfl
    case float => rw [hcore', ← hsame.float]; rfl
    case scratchpad => rw [hcore', ← hsame.scratchpad]; rfl
  · rw [hcore', hcore]
  all_goals
    rw [hcore', hcore]
    rfl

/-- **Interrupts are transparent to the interrupted program.** Let a step retire the word `word`,
which is no taken branch in a delay slot, leave the machine `r`, and then take an interrupt. Let the
word at the handler be a return, and let the environment keep the lines from interrupting again. The
return succeeds, and the machine then holds what `r` held; in particular its status register is that
of `r`. If no branch was pending in `r`, the program goes on where `r` was. Otherwise it goes on at
the branch, and if that does not read the register that it links to, executing it again succeeds and
leaves what `r` was to the program: it holds the same, is at the same address, and has the same
branch pending. -/
theorem interrupt_transparent {m r i i₁ : Machine} {word handlerWord lines : UInt32}
    (hretires : m.Retires word r) (hdue : r.core.control.interruptDue = true)
    (hslot : m.core.isBranching = false ∨ (m.transferOf word).isBranch = false)
    (hstep : m.step = .ok i)
    (hread : (Machine.read .word i.core.pc).run i = .done handlerWord i₁)
    (hreturn : Instruction.decode handlerWord = .exceptionReturn)
    (hquiet : (i.withLines lines).core.control.Quiet) :
    ∃ t, (i.withLines lines).step = .ok t ∧ r.HoldsSame t ∧
      t.core.control.status = r.core.control.status ∧ t.core.isBranching = false ∧
      (r.core.isBranching = false → t.core.pc = r.core.pc) ∧
      (r.core.isBranching = true → t.core.pc = m.core.pc ∧
        ((Instruction.decode word).readsLink = false →
          ∀ lines', (t.withLines lines').core.control.Quiet →
            ∃ u, (t.withLines lines').step = .ok u ∧ r.HoldsSame u ∧ u.core.pc = r.core.pc ∧
              u.core.branchTarget = r.core.branchTarget ∧
              u.core.isBranching = r.core.isBranching ∧
              u.core.delaySlot = r.core.delaySlot)) := by
  have hi : i = (r.delivered .interrupt r.core.pc r.core.isBranching).settleMode := by
    rw [hretires.step_of_due hdue] at hstep
    exact (Except.ok.inj hstep).symm
  obtain ⟨t, ht, hsame, hidle, hpc⟩ := step_of_interrupted hdue hi hread hreturn hquiet
  refine ⟨t, ht, hsame, congrArg Status.mk (hsame.control _ (by decide) (by decide) (by decide)),
    hidle, fun hr => ?_, fun hr => ?_⟩
  · rw [hpc, hr]
    rfl
  · have hisBranch : (m.transferOf word).isBranch = true := hretires.isBranching_eq.symm.trans hr
    have hm : m.core.isBranching = false :=
      hslot.resolve_right fun h => by rw [hisBranch] at h; cases h
    obtain ⟨target, hbranch⟩ : ∃ target, m.transferOf word = .branch target := by
      cases htransfer : m.transferOf word with
      | branch target => exact ⟨target, rfl⟩
      | _ => rw [htransfer] at hisBranch; cases hisBranch
    have hback : t.core.pc = m.core.pc := by
      rw [hpc, if_pos hr, (hretires.of_branch hm hbranch).2]
      exact UInt32.add_sub_cancel m.core.pc 4
    refine ⟨hback, fun hlink lines' hquiet' => ?_⟩
    exact step_again (t := t.withLines lines') hretires hm hbranch hlink
      ⟨hsame.registers, hsame.hi, hsame.lo, hsame.shiftAmount, hsame.float, hsame.control,
        hsame.scratchpad, hsame.bus⟩ hback hidle hquiet'

/-- A jump that links is interrupted before its delay slot, and executed again. -/
theorem interrupt_transparent_jump :
    let main := ((Memory.zero mainSize).putWord 0x1000 0x0C000800).putWord 0x200 0x42000018
    let m : Machine := ⟨{ Core.initial with
      pc := 0x1000
      control := (SystemControl.initial.setStatus ⟨0x10401⟩).request .int0 },
      { Bus.initial with main := main }, .silent⟩
    ∃ r i t u, m.Retires 0x0C000800 r ∧ r.core.control.interruptDue = true ∧ m.step = .ok i ∧
      (i.withLines 0).step = .ok t ∧ t.core.pc = 0x1000 ∧ (t.withLines 0).step = .ok u ∧
      u.core.pc = 0x1004 ∧ u.core.branchTarget = 0x2000 ∧ u.core.isBranching = true ∧
      r.HoldsSame u := by
  intro main m
  have hdecode : Instruction.decode 0x0C000800 = .jump true 0x800 := by decide
  have hjump : main.get .word 0x1000 = (0x0C000800 : UInt32) :=
    (Memory.get_putWord_of_disjoint _ (by decide) (by decide)).trans
      (Memory.get_putWord_self _ (by decide))
  have hreturn : main.get .word 0x200 = (0x42000018 : UInt32) :=
    Memory.get_putWord_self _ (by decide)
  obtain ⟨journal, hread⟩ := read_main (m := m) (a := 0x1000) 0x1000 rfl (by decide)
  rw [show m.bus.main.get .word 0x1000 = (0x0C000800 : UInt32) from hjump] at hread
  have hbranch : m.transferOf 0x0C000800 = .branch 0x2000 := by
    rw [transferOf, hdecode]
    exact congrArg Transfer.branch (show absoluteTarget 0x1000 0x800 = 0x2000 by decide)
  obtain ⟨next, m₂, hexecutes⟩ := exists_executes_of_transfer (m := m) (by decide) hread
    (ne_next_of_branch hbranch)
  have hretires : m.Retires 0x0C000800 (m.moved { m₂ with core.pc := next }).countCycle :=
    ⟨⟨_, hread⟩, _, hexecutes.attempt, rfl⟩
  generalize (m.moved { m₂ with core.pc := next }).countCycle = r at hretires
  obtain ⟨hbus, hcore⟩ := hretires.of_branch rfl hbranch
  have hcontrol : r.core.control = (m.core.control.countCycles 1).publish := by rw [hcore]
  have hdue : r.core.control.interruptDue = true := by
    rw [hcontrol]
    decide +kernel
  have hstep := hretires.step_of_due hdue
  have hpc : (r.delivered .interrupt r.core.pc r.core.isBranching).settleMode.core.pc =
      0x80000200 := by
    show r.core.control.handler .interrupt = 0x80000200
    rw [hcontrol]
    decide +kernel
  generalize hi : (r.delivered .interrupt r.core.pc r.core.isBranching).settleMode = i
    at hstep hpc
  have hmain : i.bus.main = main := by
    rw [← hi]
    exact congrArg Bus.main hbus
  obtain ⟨journal', hread'⟩ := read_main (m := i) (a := i.core.pc) 0x200
    (by rw [hpc]; rfl) (by decide)
  rw [hmain, hreturn] at hread'
  have hquiet : ∀ m' : Machine, m'.core.control.status.lines = 0x400 →
      (m'.withLines 0).core.control.Quiet := by
    intro m' hlines
    show ((m'.core.control.withLines 0).countCycles 1).latched &&& m'.core.control.status.lines = 0
    have hlatched : (m'.core.control.withLines 0).latched = 0 := rfl
    rw [SystemControl.latched_countCycles, hlatched, hlines]
    split <;> decide
  have hlines : i.core.control.status.lines = 0x400 := by
    rw [← hi]
    show (r.core.control.enter .interrupt r.core.pc r.core.isBranching).status.lines = 0x400
    rw [SystemControl.lines_status_enter, hcontrol]
    decide +kernel
  obtain ⟨t, ht, -, hstatus, -, -, hpending⟩ := interrupt_transparent hretires hdue (.inl rfl) hstep
    hread' (by decide) (hquiet i hlines)
  obtain ⟨hback, hagain⟩ := hpending (by rw [hcore]; rfl)
  have hlines' : t.core.control.status.lines = 0x400 := by
    rw [hstatus, hcontrol]
    decide +kernel
  obtain ⟨u, hu, hsame, hupc, hutarget, hupending, -⟩ :=
    hagain (by rw [hdecode]; rfl) 0 (hquiet t hlines')
  rw [hcore] at hupc hutarget hupending
  exact ⟨r, i, t, u, hretires, hdue, hstep, ht, hback, hu, hupc, hutarget, hupending, hsame⟩

end Machine

end R5900
