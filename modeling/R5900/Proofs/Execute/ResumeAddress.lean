import R5900.Proofs.Execute.Branch
import R5900.Proofs.VirtualMemory

/-!
# Where a processor resumes that was stopped in a delay slot

An exception in a delay slot is meant to resume at the branch. The control unit takes the address
before the one where the exception was taken. That is the address of the branch, unless the branch
is in the delay slot of another one: then its own delay slot is at the target of the other branch.

* `Machine.RetiresBranch` and `Machine.LastBranch`: the taken branch that a run retired last.
* `Machine.epc_of_delivery`: the resume address after any run, in terms of that branch.
* `Machine.epc_of_nested_branch`: a run after which it is not the address of the branch.
-/

namespace R5900

namespace Machine

variable {m m' m₀ : Machine} {e : Exception} {s : SystemControl}

/-! ## Retired branches -/

/-- The step of the machine retires a taken branch. -/
def RetiresBranch (m : Machine) : Prop :=
  ∃ word m₁ next m₂, m.Executes word m₁ next m₂ ∧ (m.transferOf word).isBranch = true

/-- In a run of `n` steps from `m₀` and the step after it, the last step that retires a taken
branch is that of the machine `b`. -/
def LastBranch (m₀ : Machine) (n : Nat) (b : Machine) : Prop :=
  ∃ k ≤ n, steps k m₀ = .ok b ∧ b.RetiresBranch ∧
    ∀ j x, k < j → j ≤ n → steps j m₀ = .ok x → ¬x.RetiresBranch

/-- A taken branch goes on with the second of the next two instructions. -/
theorem nextPc_of_isBranch {word : UInt32} (h : (m.transferOf word).isBranch = true) :
    m.nextPc word = m.core.flow.2 := by
  rw [nextPc]
  cases htransfer : m.transferOf word with
  | branch target => rfl
  | _ => rw [htransfer] at h; cases h

/-- A run has one last taken branch at most. -/
theorem LastBranch.unique {n : Nat} {b b' : Machine} (h : m₀.LastBranch n b)
    (h' : m₀.LastBranch n b') : b = b' := by
  obtain ⟨k, hk, hb, hretires, hlast⟩ := h
  obtain ⟨k', hk', hb', hretires', hlast'⟩ := h'
  rcases Nat.lt_trichotomy k k' with hlt | rfl | hlt
  · exact absurd hretires' (hlast k' b' hlt hk' hb')
  · rw [hb] at hb'
    exact Except.ok.inj hb'
  · exact absurd hretires (hlast' k b hlt hk hb)

theorem not_retiresBranch_of_refuses (h : m.Refuses e) : ¬m.RetiresBranch :=
  fun ⟨_, _, _, _, hexecutes, _⟩ => hexecutes.quiet e h

/-! ## Steps -/

/-- After a step, a branch is pending only if the step has retired it. The processor is then at the
second of the two instructions that were next before the step. -/
theorem retires_of_pending (h : m.step = .ok m') (hpending : m'.core.isBranching = true) :
    m.RetiresBranch ∧ m'.core.pc = m.core.flow.2 := by
  rcases step_cases h with ⟨e, m₁, -, -, rfl⟩ | ⟨word, m₁, next, m₂, hexecutes, rfl⟩
  · rw [finished_delivered] at hpending
    cases hpending
  · by_cases hadmits :
        ((m.moved { m₂ with core.pc := next }).core.control.countCycles 1).Admits
    · rw [(takes_of_admits rfl hadmits).idle.1] at hpending
      cases hpending
    · have hproceeds := proceeds_of_not_admits rfl hadmits
      have hbranch : (m.transferOf word).isBranch = true :=
        hexecutes.isBranching_eq.symm.trans (hproceeds.branching.symm.trans hpending)
      exact ⟨⟨word, m₁, next, m₂, hexecutes, hbranch⟩,
        hproceeds.pc.trans (hexecutes.pc_eq.trans (nextPc_of_isBranch hbranch))⟩

/-- What a step delivers is recorded at the program counter before it, if the step refuses, or at
the address after the instruction that it has retired. -/
theorem records_of_delivery (h : m.step = .ok m') (hdelivery : m.delivery? = some (e, s)) :
    (m.Refuses e ∧ s.Records e m.core.pc m.core.isBranching m'.core.control) ∨
      ∃ word m₁ next m₂, m.Executes word m₁ next m₂ ∧
        s.Records e (m.nextPc word) (m.transferOf word).isBranch m'.core.control := by
  rcases m.attempt_settles with
    ⟨e', m₁, hattempt, hrefuses, hfetches⟩ | ⟨word, m₁, next, m₂, hexecutes⟩
  · rw [step_of_raised hattempt] at h
    rw [delivery?, hattempt] at hdelivery
    cases h
    cases hdelivery
    refine .inl ⟨hrefuses, ?_⟩
    have htakes := takes_of_raised hrefuses hfetches.control
    rw [hfetches.control]
    exact htakes.records
  · rw [step_of_done hexecutes.attempt] at h
    cases h
    have hcontrol := control_moved m m₂ next
    rw [delivery?, hexecutes.attempt] at hdelivery
    cases hdue : (m₂.core.control.countCycles 1).publish.interruptDue with
    | false => simp [hdue] at hdelivery
    | true =>
      simp only [hdue, if_true, Option.some.injEq, Prod.mk.injEq] at hdelivery
      obtain ⟨rfl, rfl⟩ := hdelivery
      refine .inr ⟨word, m₁, next, m₂, hexecutes, ?_⟩
      rw [finished_of_due (by rw [hcontrol]; exact hdue), ← hexecutes.pc_eq,
        ← hexecutes.isBranching_eq, ← hcontrol]
      exact SystemControl.records_enter ..

/-! ## Runs -/

/-- A run of one more step is a run and one more step. -/
theorem exists_of_steps_succ {n : Nat} (h : steps (n + 1) m₀ = .ok m) :
    ∃ x, steps n m₀ = .ok x ∧ x.step = .ok m := by
  induction n generalizing m₀ with
  | zero =>
    obtain ⟨x, hstep, hx⟩ := exists_of_bind_eq_ok h
    cases hx
    exact ⟨m₀, rfl, hstep⟩
  | succ n ih =>
    obtain ⟨x, hstep, hrest⟩ := exists_of_bind_eq_ok h
    obtain ⟨y, hy, hm⟩ := ih hrest
    refine ⟨y, ?_, hm⟩
    rw [steps, hstep]
    exact hy

/-- If a branch is pending after a run that began with none pending, the last step of the run has
retired it. -/
theorem exists_of_pending {n : Nat} (hidle : m₀.core.isBranching = false)
    (hrun : steps n m₀ = .ok m) (hpending : m.core.isBranching = true) :
    ∃ k b, n = k + 1 ∧ steps k m₀ = .ok b ∧ b.RetiresBranch ∧ m.core.pc = b.core.flow.2 := by
  cases n with
  | zero =>
    cases hrun
    rw [hidle] at hpending
    cases hpending
  | succ k =>
    obtain ⟨b, hb, hstep⟩ := exists_of_steps_succ hrun
    obtain ⟨hretires, hpc⟩ := retires_of_pending hstep hpending
    exact ⟨k, b, rfl, hb, hretires, hpc⟩

/-- If the step after a run refuses, the last step of the run is the last one that can have retired
a branch. -/
theorem lastBranch_of_refuses {k : Nat} {b : Machine} (hb : steps k m₀ = .ok b)
    (hretires : b.RetiresBranch) (hrun : steps (k + 1) m₀ = .ok m) (hrefuses : m.Refuses e) :
    m₀.LastBranch (k + 1) b := by
  refine ⟨k, Nat.le_succ k, hb, hretires, ?_⟩
  intro j x hlt hle hx
  obtain rfl : j = k + 1 := Nat.le_antisymm hle hlt
  rw [hrun] at hx
  cases hx
  exact not_retiresBranch_of_refuses hrefuses

/-- **The resume address of a delay slot follows the branch that was retired last.** Take any run
that begins with no branch pending, and let the step after it deliver an exception or an interrupt
inside no other exception, and mark it as in a delay slot. The run or that step has retired a taken
branch, and the resume address is that of the last one, if this was in no delay slot itself;
otherwise it is the address before the target of the branch before it. A return resumes there,
unless an error is being handled. -/
theorem epc_of_delivery {n : Nat} (hidle : m₀.core.isBranching = false)
    (hrun : steps n m₀ = .ok m) (hstep : m.step = .ok m')
    (hdelivery : m.delivery? = some (e, s)) (hlevel : s.status.exceptionLevel = false)
    (hslot : m'.core.control.cause.inDelaySlot = true) :
    ∃ b, m₀.LastBranch n b ∧
      m'.core.control.get .epc =
        (if b.core.isBranching then b.core.branchTarget - 4 else b.core.pc) ∧
      (s.status.errorLevel = false →
        m'.core.control.exceptionReturn.1 = m'.core.control.get .epc) := by
  have hreturn : ∀ {pc slot}, s.Records e pc slot m'.core.control →
      s.status.errorLevel = false →
        m'.core.control.exceptionReturn.1 = m'.core.control.get .epc := by
    intro pc slot hrecords herror
    rw [SystemControl.exceptionReturn_of_not_error]
    rw [(hrecords.outermost hlevel).2.2, Status.errorLevel_setExceptionLevel, herror]
  have hepc : ∀ {b : Machine} {pc}, pc = b.core.flow.2 → s.Records e pc true m'.core.control →
      m'.core.control.get .epc =
        (if b.core.isBranching then b.core.branchTarget - 4 else b.core.pc) := by
    intro b pc hpc hrecords
    rw [(hrecords.outermost hlevel).1, if_pos rfl, hpc, Core.flow]
    split
    · rfl
    · exact UInt32.add_sub_cancel b.core.pc 4
  rcases records_of_delivery hstep hdelivery with
    ⟨hrefuses, hrecords⟩ | ⟨word, m₁, next, m₂, hexecutes, hrecords⟩
  · have hpending : m.core.isBranching = true := (hrecords.outermost hlevel).2.1.symm.trans hslot
    obtain ⟨k, b, rfl, hb, hretires, hpc⟩ := exists_of_pending hidle hrun hpending
    rw [hpending] at hrecords
    exact ⟨b, lastBranch_of_refuses hb hretires hrun hrefuses, hepc hpc hrecords,
      hreturn hrecords⟩
  · have hbranch : (m.transferOf word).isBranch = true :=
      (hrecords.outermost hlevel).2.1.symm.trans hslot
    rw [hbranch] at hrecords
    refine ⟨m, ⟨n, Nat.le_refl n, hrun, ⟨word, m₁, next, m₂, hexecutes, hbranch⟩, ?_⟩,
      hepc (nextPc_of_isBranch hbranch) hrecords, hreturn hrecords⟩
    intro j x hlt hle
    exact absurd hle (Nat.not_le_of_lt hlt)

/-! ## Jumps in main memory -/

/-- What a step is meant to raise is recorded at the program counter before it. -/
theorem records_of_refuses (hstep : m.step = .ok m') (h : m.Refuses e) :
    m.core.control.Records e m.core.pc m.core.isBranching m'.core.control := by
  rcases records_of_delivery hstep (delivery_of_refuses h) with
    ⟨-, hrecords⟩ | ⟨word, m₁, next, m₂, hexecutes, -⟩
  · exact hrecords
  · exact absurd h (hexecutes.quiet e)

section Main

variable (offset : Nat) (hcell : Cell.ofNat? m.core.pc.toNat = some ⟨.main, offset⟩)
  (hfit : offset + 4 ≤ mainSize) (haligned : Width.word.bytes ∣ m.core.pc.toNat)
include hcell hfit haligned

/-- The step of a jump in main memory. -/
theorem step_of_jump {word field : UInt32} (hword : m.bus.main.get .word offset = word)
    (hdecode : Instruction.decode word = .jump false field) (hquiet : m.core.control.Quiet) :
    m.RetiresBranch ∧ ∃ t, m.step = .ok t ∧ t.bus = m.bus ∧
      t.core.flow = (m.core.flow.2, absoluteTarget m.core.pc field) ∧
      t.core.isBranching = true ∧ t.core.control = (m.core.control.countCycles 1).publish := by
  have hbranch : m.transferOf word = .branch (absoluteTarget m.core.pc field) := by
    rw [transferOf, hdecode]
    rfl
  obtain ⟨journal, hread⟩ := read_main offset hcell hfit
  rw [hword] at hread
  obtain ⟨next, m₂, hexecutes⟩ :=
    exists_executes_of_transfer haligned hread (ne_next_of_branch hbranch)
  obtain ⟨t, hstep, hbus, hcore⟩ := step_of_branch haligned hread hbranch hquiet
  refine ⟨⟨word, _, next, m₂, hexecutes, by rw [hbranch]; rfl⟩, t, hstep, hbus, ?_⟩
  rw [hcore]
  exact ⟨rfl, rfl, rfl⟩

/-- A system call in main memory is meant to raise one. -/
theorem refuses_of_syscall (hword : m.bus.main.get .word offset = (0x0000000C : UInt32)) :
    m.Refuses .syscall := by
  have hdecode : Instruction.decode 0x0000000C = .syscall := by decide
  obtain ⟨journal, hread⟩ := read_main offset hcell hfit
  rw [hword] at hread
  exact .instruction haligned hread (by rw [hdecode]; exact .syscall)

end Main

/-- A system call in the delay slot of a jump. -/
theorem epc_of_delivery_jump :
    let main := ((Memory.zero mainSize).putWord 0x1000 0x08000800).putWord 0x1004 0x0000000C
    let m₀ : Machine :=
      ⟨{ Core.initial with pc := 0x1000 }, { Bus.initial with main := main }, .silent⟩
    ∃ m m', steps 1 m₀ = .ok m ∧ m.step = .ok m' ∧
      m.delivery? = some (.syscall, m.core.control) ∧
      m'.core.control.cause.inDelaySlot = true ∧ m₀.LastBranch 1 m₀ ∧
      m'.core.control.get .epc = 0x1000 ∧ m'.core.control.exceptionReturn.1 = 0x1000 := by
  intro main m₀
  have hjump : main.get .word 0x1000 = (0x08000800 : UInt32) :=
    (Memory.get_putWord_of_disjoint _ (by decide) (by decide)).trans
      (Memory.get_putWord_self _ (by decide))
  obtain ⟨hretires, m, hstep, hbus, hflow, hpending, hcontrol⟩ := step_of_jump (m := m₀) 0x1000 rfl
    (by decide) (by decide) hjump (show _ = Instruction.jump false 0x800 by decide)
    (show _ = _ by decide +kernel)
  have hrun : steps 1 m₀ = .ok m := by
    rw [steps, hstep]
    rfl
  have hpc : m.core.pc = 0x1004 := congrArg Prod.fst hflow
  have hrefuses : m.Refuses .syscall :=
    refuses_of_syscall 0x1004 (by rw [hpc]; rfl) (by decide) (by rw [hpc]; decide)
      ((congrArg (fun b : Bus => b.main.get .word 0x1004) hbus).trans
        (Memory.get_putWord_self _ (by decide)))
  have hdelivery := delivery_of_refuses hrefuses
  obtain ⟨m', hstep', -⟩ := m.step_eq_ok
  have hlevel : m.core.control.status.exceptionLevel = false := by
    rw [hcontrol]
    decide +kernel
  have herror : m.core.control.status.errorLevel = false := by
    rw [hcontrol]
    decide +kernel
  have hlast : m₀.LastBranch 1 m₀ := lastBranch_of_refuses rfl hretires hrun hrefuses
  have hslot : m'.core.control.cause.inDelaySlot = true :=
    ((records_of_refuses hstep' hrefuses).outermost hlevel).2.1.trans hpending
  have hidle : m₀.core.isBranching = false := rfl
  obtain ⟨b, hb, hepc, hreturn⟩ := epc_of_delivery hidle hrun hstep' hdelivery hlevel hslot
  rw [← hlast.unique hb, hidle, if_neg Bool.false_ne_true] at hepc
  exact ⟨m, m', hrun, hstep', hdelivery, hslot, hlast, hepc, (hreturn herror).trans hepc⟩

/-- A system call in the delay slot of a jump that is in the delay slot of another jump. The last
branch is the second jump, at `0x1004`, and the resume address is the one before the target of the
first. -/
theorem epc_of_nested_branch :
    let main := (((Memory.zero mainSize).putWord 0x1000 0x08000800).putWord 0x1004
      0x08000C00).putWord 0x2000 0x0000000C
    let m₀ : Machine :=
      ⟨{ Core.initial with pc := 0x1000 }, { Bus.initial with main := main }, .silent⟩
    m₀.core.isBranching = false ∧ ∃ b m m', steps 2 m₀ = .ok m ∧ m.step = .ok m' ∧
      m.delivery? = some (.syscall, m.core.control) ∧
      m.core.control.status.exceptionLevel = false ∧
      m'.core.control.cause.inDelaySlot = true ∧ m₀.LastBranch 2 b ∧
      b.core.pc = 0x1004 ∧ m'.core.control.get .epc = 0x1FFC := by
  intro main m₀
  have hjump : main.get .word 0x1000 = (0x08000800 : UInt32) :=
    (Memory.get_putWord_of_disjoint _ (by decide) (by decide)).trans
      ((Memory.get_putWord_of_disjoint _ (by decide) (by decide)).trans
        (Memory.get_putWord_self _ (by decide)))
  have hjump' : main.get .word 0x1004 = (0x08000C00 : UInt32) :=
    (Memory.get_putWord_of_disjoint _ (by decide) (by decide)).trans
      (Memory.get_putWord_self _ (by decide))
  obtain ⟨-, b, hstep, hbus, hflow, hpending, hcontrol⟩ := step_of_jump (m := m₀) 0x1000 rfl
    (by decide) (by decide) hjump (show _ = Instruction.jump false 0x800 by decide)
    (show _ = _ by decide +kernel)
  have hb : b.core.pc = 0x1004 := congrArg Prod.fst hflow
  obtain ⟨hretires, m, hstep', hbus', hflow', hpending', hcontrol'⟩ := step_of_jump (m := b)
    0x1004 (by rw [hb]; rfl) (by decide) (by rw [hb]; decide)
    ((congrArg (fun b : Bus => b.main.get .word 0x1004) hbus).trans hjump')
    (show _ = Instruction.jump false 0xC00 by decide)
    (by rw [hcontrol]; exact (show _ = _ by decide +kernel))
  have hpc : m.core.pc = 0x2000 := by
    have hfst := congrArg Prod.fst hflow'
    rw [hflow] at hfst
    exact hfst.trans (show absoluteTarget 0x1000 0x800 = 0x2000 by decide)
  have hrefuses : m.Refuses .syscall :=
    refuses_of_syscall 0x2000 (by rw [hpc]; rfl) (by decide) (by rw [hpc]; decide)
      ((congrArg (fun b : Bus => b.main.get .word 0x2000) (hbus'.trans hbus)).trans
        (Memory.get_putWord_self _ (by decide)))
  have hdelivery := delivery_of_refuses hrefuses
  have hlevel : m.core.control.status.exceptionLevel = false := by
    rw [hcontrol', hcontrol]
    decide +kernel
  have hrun : steps 1 m₀ = .ok b ∧ steps 2 m₀ = .ok m := by
    constructor
    · rw [steps, hstep]
      rfl
    · rw [steps, hstep]
      exact (congrArg (· >>= steps 0) hstep').trans rfl
  obtain ⟨m', hstep'', -⟩ := m.step_eq_ok
  obtain ⟨hepc, hslot, -⟩ := (records_of_refuses hstep'' hrefuses).outermost hlevel
  rw [hpending', if_pos rfl, hpc] at hepc
  exact ⟨rfl, b, m, m', hrun.2, hstep'', hdelivery, hlevel, hslot.trans hpending',
    lastBranch_of_refuses hrun.1 hretires hrun.2 hrefuses, hb, hepc.trans (by decide)⟩

end Machine

end R5900
