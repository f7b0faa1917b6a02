import R5900.Proofs.Execute.Step

/-!
# Branches and their delay slots

To a program, the processor has the address `pc` of the instruction to execute and the address `npc`
of the one after it, and a branch changes `npc`. The core keeps no `npc`: it keeps a pending branch,
takes it out before every attempt and puts the target into the program counter afterwards.
`Core.flow` is the pair of both addresses that a core stands for, and `Transfer.apply` says what an
instruction does to the pair.

* `Machine.step_follows`: a step acts on the pair as it should, and leaves a branch pending exactly
  if one instruction has to run before it takes effect.
* `Machine.steps_follow`: so does every step of every run.
-/

namespace R5900

/-- The address of the next instruction to execute, and of the one after it. -/
def Core.flow (c : Core) : UInt32 × UInt32 :=
  (c.pc, if c.isBranching then c.branchTarget else c.pc + 4)

/-- A branch is pending exactly if one instruction runs before it takes effect. -/
def Core.Sequential (c : Core) : Prop := c.isBranching = true ↔ c.delaySlot = 1

/-- What an instruction does to the addresses of the next two instructions. In a delay slot, the
target of the branch is already the second one, and only another branch has any effect. -/
def Transfer.apply (t : Transfer) (inDelaySlot : Bool) (flow : UInt32 × UInt32) : UInt32 × UInt32 :=
  match t, inDelaySlot with
  | .branch target, _ => (flow.2, target)
  | .skip, false => (flow.1 + 8, flow.1 + 12)
  | .resume target, false => (target, target + 4)
  | _, _ => (flow.2, flow.2 + 4)

theorem Core.flow_of_idle {c : Core} (h : c.isBranching = false) : c.flow = (c.pc, c.pc + 4) := by
  rw [flow, h]
  rfl

theorem Core.npc_of_idle {c : Core} (h : c.isBranching = false) : c.flow.2 = c.pc + 4 := by
  rw [flow_of_idle h]

theorem Core.sequential_of_idle {c : Core} (h : c.isBranching = false) (h' : c.delaySlot ≠ 1) :
    c.Sequential := by
  rw [Sequential, h]
  exact ⟨nofun, fun h1 => absurd h1 h'⟩

namespace Machine

/-! ## The end of a step -/

/-- Counting the cycle leaves the flow alone. -/
theorem flow_countCycle (m : Machine) : m.countCycle.core.flow = m.core.flow := rfl

theorem sequential_countCycle (m : Machine) : m.countCycle.core.Sequential ↔ m.core.Sequential :=
  Iff.rfl

/-- Settling the mode leaves the flow alone. -/
theorem flow_settleMode (m : Machine) : m.settleMode.core.flow = m.core.flow := rfl

theorem sequential_settleMode (m : Machine) : m.settleMode.core.Sequential ↔ m.core.Sequential :=
  Iff.rfl

/-! ## Delivery -/

/-- The exception or interrupt that a step delivers, with the control registers that it finds. -/
def delivery? (m : Machine) : Option (Exception × SystemControl) :=
  match m.attempt with
  | .raised e m' => some (e, m'.core.control)
  | .done _ m' =>
    let control := (m'.core.control.countCycles 1).publish
    if control.interruptDue then some (.interrupt, control) else none
  | .faulted _ => none

theorem countCycle_core (m : Machine) :
    m.countCycle.core = { m.core with control := (m.core.control.countCycles 1).publish } :=
  rfl

theorem finished_of_due {m : Machine}
    (h : (m.core.control.countCycles 1).publish.interruptDue = true) :
    m.finished =
      (m.countCycle.delivered .interrupt m.core.pc m.core.isBranching).settleMode := by
  have hdue : m.countCycle.core.control.interruptDue = true := h
  rw [finished, interrupted, if_pos hdue]
  rfl

theorem finished_of_not_due {m : Machine}
    (h : (m.core.control.countCycles 1).publish.interruptDue = false) :
    m.finished = m.countCycle.settleMode := by
  have hdue : ¬m.countCycle.core.control.interruptDue = true := by
    rw [countCycle_core, h]
    exact Bool.false_ne_true
  rw [finished, interrupted, if_neg hdue]

theorem flow_delivered (e : Exception) (pc : UInt32) (inDelaySlot : Bool) (m : Machine) :
    (m.delivered e pc inDelaySlot).core.flow =
      (m.core.control.handler e, m.core.control.handler e + 4) :=
  rfl

theorem sequential_delivered (e : Exception) (pc : UInt32) (inDelaySlot : Bool) (m : Machine) :
    (m.delivered e pc inDelaySlot).core.Sequential :=
  Core.sequential_of_idle rfl (show (0 : UInt8) ≠ 1 by decide)

/-- An interrupt that is due at the end of a step sends the processor to its handler. -/
theorem flow_finished_of_due {m : Machine}
    (h : (m.core.control.countCycles 1).publish.interruptDue = true) :
    m.finished.core.flow =
        ((m.core.control.countCycles 1).publish.handler .interrupt,
          (m.core.control.countCycles 1).publish.handler .interrupt + 4) ∧
      m.finished.core.Sequential := by
  rw [finished_of_due h, flow_settleMode, sequential_settleMode]
  exact ⟨flow_delivered .interrupt m.core.pc m.core.isBranching m.countCycle,
    sequential_delivered .interrupt m.core.pc m.core.isBranching m.countCycle⟩

/-- After an exception is delivered, the end of the step delivers no interrupt. -/
theorem finished_delivered (e : Exception) (pc : UInt32) (inDelaySlot : Bool) (m : Machine) :
    (m.delivered e pc inDelaySlot).finished =
      (m.delivered e pc inDelaySlot).countCycle.settleMode := by
  apply finished_of_not_due
  apply SystemControl.interruptDue_of_exceptionLevel
  rw [SystemControl.status_publish, SystemControl.status_countCycles]
  exact SystemControl.exceptionLevel_enter ..

/-! ## Transfers -/

theorem transfer_fetched (i : Instruction) (pc word : UInt32) (m : Machine) :
    i.transfer pc (fetchedCore m.entering.core m.core.isBranching word) =
      i.transfer pc m.core := by
  unfold entering fetchedCore
  cases m.core.isBranching <;> cases i <;> rfl

/-- When an instruction is executed, no branch is pending. -/
theorem idle_fetched {m : Machine} (hm : m.core.Sequential) (word : UInt32) :
    (fetchedCore m.entering.core m.core.isBranching word).isBranching = false ∧
      (fetchedCore m.entering.core m.core.isBranching word).delaySlot ≠ 1 := by
  unfold entering fetchedCore
  cases h : m.core.isBranching with
  | true => exact ⟨rfl, show (0 : UInt8) ≠ 1 by decide⟩
  | false =>
    refine ⟨h, fun h1 => ?_⟩
    rw [hm.2 h1] at h
    cases h

theorem idle_of_sequencing_eq {c c' : Core} (h : c'.sequencing = c.sequencing)
    (hc : c.isBranching = false ∧ c.delaySlot ≠ 1) :
    c'.isBranching = false ∧ c'.delaySlot ≠ 1 := by
  have hbranching : c'.isBranching = c.isBranching := congrArg Sequencing.isBranching h
  have hslot : c'.delaySlot = c.delaySlot := congrArg Sequencing.delaySlot h
  rw [hbranching, hslot]
  exact hc

/-- The flow after an instruction that leaves no branch pending. -/
theorem flow_moved_of_idle (m : Machine) {c : Core} (bus : Bus) (journal : Journal) (next : UInt32)
    (h : c.isBranching = false ∧ c.delaySlot ≠ 1) :
    (m.moved ⟨{ c with pc := next }, bus, journal⟩).core.flow =
        (if m.core.isBranching then (m.core.flow.2, m.core.flow.2 + 4) else (next, next + 4)) ∧
      (m.moved ⟨{ c with pc := next }, bus, journal⟩).core.Sequential := by
  cases hslot : m.core.isBranching with
  | true =>
    have hnpc : m.core.flow.2 = m.core.branchTarget := if_pos hslot
    rw [moved, if_pos hslot, hnpc]
    exact ⟨Core.flow_of_idle h.1, Core.sequential_of_idle h.1 h.2⟩
  | false =>
    rw [moved, hslot]
    exact ⟨Core.flow_of_idle h.1, Core.sequential_of_idle h.1 h.2⟩

/-- The flow after an instruction that leaves a branch pending. -/
theorem flow_moved_of_branch (m : Machine) (c : Core) (bus : Bus) (journal : Journal)
    (target : UInt32) :
    (m.moved ⟨{ c.branchTo target with pc := m.core.pc + 4 }, bus, journal⟩).core.flow =
        (m.core.flow.2, target) ∧
      (m.moved ⟨{ c.branchTo target with pc := m.core.pc + 4 }, bus, journal⟩).core.Sequential := by
  cases hslot : m.core.isBranching with
  | true =>
    simp only [moved, Core.flow, hslot, if_true]
    exact ⟨rfl, iff_of_true rfl rfl⟩
  | false =>
    simp only [moved, Core.flow, hslot]
    exact ⟨rfl, iff_of_true rfl rfl⟩

theorem add_eight_add_four (a : UInt32) : a + 8 + 4 = a + 12 := by
  rw [UInt32.add_assoc]
  rfl

/-- An instruction that is done, executed while no branch is pending, does to the flow what it
should. -/
theorem flow_moved {m m₂ : Machine} {i : Instruction} {c : Core} {bus : Bus} {journal : Journal}
    {next : UInt32} (hc : c.isBranching = false ∧ c.delaySlot ≠ 1)
    (hsame : i.transfer m.core.pc c = i.transfer m.core.pc m.core)
    (h : i.Effect m.core.pc ⟨c, bus, journal⟩ next m₂) :
    (m.moved { m₂ with core.pc := next }).core.flow =
        (i.transfer m.core.pc m.core).apply m.core.isBranching m.core.flow ∧
      (m.moved { m₂ with core.pc := next }).core.Sequential := by
  rw [Instruction.Effect, hsame] at h
  cases htransfer : i.transfer m.core.pc m.core with
  | next =>
    rw [htransfer] at h
    obtain ⟨rfl, hsequencing⟩ := h
    have hmoved := flow_moved_of_idle m m₂.bus m₂.journal (m.core.pc + 4)
      (idle_of_sequencing_eq hsequencing hc)
    refine ⟨hmoved.1.trans ?_, hmoved.2⟩
    cases hslot : m.core.isBranching with
    | true => rfl
    | false =>
      have hnpc : m.core.flow.2 = m.core.pc + 4 := Core.npc_of_idle hslot
      show (m.core.pc + 4, m.core.pc + 4 + 4) = (m.core.flow.2, m.core.flow.2 + 4)
      rw [hnpc]
  | branch target =>
    rw [htransfer] at h
    obtain ⟨rfl, rfl⟩ := h
    exact flow_moved_of_branch m _ _ _ target
  | skip =>
    rw [htransfer] at h
    obtain ⟨rfl, rfl⟩ := h
    have hmoved := flow_moved_of_idle m bus journal (m.core.pc + 8)
      (idle_of_sequencing_eq (Core.sequencing_link i m.core.pc c) hc)
    refine ⟨hmoved.1.trans ?_, hmoved.2⟩
    cases hslot : m.core.isBranching with
    | true => rfl
    | false =>
      show (m.core.pc + 8, m.core.pc + 8 + 4) = (m.core.pc + 8, m.core.pc + 12)
      rw [add_eight_add_four]
  | resume target =>
    rw [htransfer] at h
    obtain ⟨rfl, rfl⟩ := h
    have hmoved := flow_moved_of_idle m bus journal next
      (c := { c with control := c.control.exceptionReturn.2 }) hc
    refine ⟨hmoved.1.trans ?_, hmoved.2⟩
    cases hslot : m.core.isBranching with
    | true => rfl
    | false => rfl

/-! ## Steps and runs -/

/-- The step from `m` to `m'` skips the word after the branch `word`: of the bus it does no more
than read `word`, which gives the machine `m₁`, and of the core it changes the link register, if
the branch has one, and what every step changes. -/
def Annuls (m : Machine) (word : UInt32) (m₁ m' : Machine) : Prop :=
  m'.bus = m₁.bus ∧
    m'.core = { (Instruction.decode word).link m.core.pc m.core with
      pc := m.core.pc + 8, current := word, control := m'.core.control, mode := m'.core.mode }

/-- The step from `m` to `m'` acts on the addresses of the next two instructions as it should: it
goes to the handler of what it delivers, or else does what the word at the program counter says. -/
def Follows (m m' : Machine) : Prop :=
  match m.delivery? with
  | some (e, control) => m'.core.flow = (control.handler e, control.handler e + 4)
  | none => ∃ word m₁, (Machine.read .word m.core.pc).run m = .done word m₁ ∧
      m'.core.flow =
        ((Instruction.decode word).transfer m.core.pc m.core).apply m.core.isBranching
          m.core.flow ∧
      ((Instruction.decode word).transfer m.core.pc m.core = .skip →
        m.core.isBranching = false → m.Annuls word m₁ m')

theorem link_current (i : Instruction) (pc word : UInt32) (c : Core) :
    i.link pc { c with current := word } = { i.link pc c with current := word } := by
  unfold Instruction.link
  split <;> first | rfl | (unfold Core.setWord Core.setDouble Core.setQuad; split <;> rfl)

theorem annuls_finished {m m₁ m₂ : Machine} {word next : UInt32} {journal : Journal}
    (hslot : m.core.isBranching = false)
    (hskip : (Instruction.decode word).transfer m.core.pc m.core = .skip)
    (h : (Instruction.decode word).Effect m.core.pc
      ⟨fetchedCore m.entering.core m.core.isBranching word, m₁.bus, journal⟩ next m₂) :
    m.Annuls word m₁ (m.moved { m₂ with core.pc := next }).countCycle.settleMode := by
  rw [Instruction.Effect, transfer_fetched, hskip] at h
  obtain ⟨rfl, rfl⟩ := h
  have hfetched : fetchedCore m.entering.core m.core.isBranching word =
      { m.core with current := word } := by
    rw [entering, hslot]
    rfl
  have hout : ¬m.core.isBranching = true := by
    rw [hslot]
    exact Bool.false_ne_true
  rw [hfetched, link_current, moved, if_neg hout]
  exact ⟨rfl, rfl⟩

/-- A step acts on the flow as it should, and leaves a branch pending exactly if one instruction
runs before it takes effect. -/
theorem step_follows {m : Machine} (hm : m.core.Sequential) :
    ∃ m', m.step = .ok m' ∧ m'.core.Sequential ∧ m.Follows m' := by
  rcases m.attempt_cases with ⟨e, m', hattempt, -, -⟩ | ⟨word, m₁, next, m₂, h⟩
  · refine ⟨_, step_of_raised hattempt, ?_, ?_⟩
    · rw [finished_delivered, sequential_settleMode, sequential_countCycle]
      exact sequential_delivered e m.core.pc m.core.isBranching m'
    · rw [Follows, delivery?, hattempt, finished_delivered]
      dsimp only
      rw [flow_settleMode, flow_countCycle]
      exact flow_delivered e m.core.pc m.core.isBranching m'
  · obtain ⟨journal, hcompletes⟩ := h.completes
    have hflow := flow_moved (idle_fetched hm word) (transfer_fetched _ _ _ _) hcompletes.effect
    have hcontrol : (m.moved { m₂ with core.pc := next }).core.control = m₂.core.control := by
      rw [moved]
      split <;> rfl
    refine ⟨_, step_of_done h.attempt, ?_⟩
    cases hdue : (m₂.core.control.countCycles 1).publish.interruptDue with
    | true =>
      have hinterrupt := flow_finished_of_due (m := m.moved { m₂ with core.pc := next })
        (by rw [hcontrol]; exact hdue)
      refine ⟨hinterrupt.2, ?_⟩
      rw [Follows, delivery?, h.attempt]
      simp only [hdue, if_true]
      rw [hcontrol] at hinterrupt
      exact hinterrupt.1
    | false =>
      rw [finished_of_not_due (by rw [hcontrol]; exact hdue)]
      rw [sequential_settleMode, sequential_countCycle]
      refine ⟨hflow.2, ?_⟩
      rw [Follows, delivery?, h.attempt]
      simp only [hdue]
      refine ⟨word, m₁, h.read, ?_, ?_⟩
      · rw [flow_settleMode, flow_countCycle]
        exact hflow.1
      · intro hskip hslot
        exact annuls_finished hslot hskip hcompletes.effect

/-- **Every step of every run acts on the flow as it should.** -/
theorem steps_follow (m : Machine) (hm : m.core.isBranching = true ↔ m.core.delaySlot = 1)
    (n : Nat) :
    ∃ mₙ m', steps n m = .ok mₙ ∧ (mₙ.core.isBranching = true ↔ mₙ.core.delaySlot = 1) ∧
      mₙ.step = .ok m' ∧ mₙ.Follows m' := by
  induction n generalizing m with
  | zero =>
    obtain ⟨m', hstep, -, hfollows⟩ := step_follows hm
    exact ⟨m, m', rfl, hm, hstep, hfollows⟩
  | succ n ih =>
    obtain ⟨m₁, hstep, hm₁, -⟩ := step_follows hm
    obtain ⟨mₙ, m', hsteps, h⟩ := ih m₁ hm₁
    refine ⟨mₙ, m', ?_, h⟩
    rw [steps, hstep]
    exact hsteps

/-- A reset processor meets the condition of `steps_follow`. -/
theorem steps_follow_initial :
    (Core.initial.isBranching = true ↔ Core.initial.delaySlot = 1) ∧
      ∃ mₙ m', steps 2 ⟨Core.initial, Bus.initial, .silent⟩ = .ok mₙ ∧
        (mₙ.core.isBranching = true ↔ mₙ.core.delaySlot = 1) ∧
        mₙ.step = .ok m' ∧ mₙ.Follows m' :=
  ⟨⟨nofun, nofun⟩, steps_follow ⟨Core.initial, Bus.initial, .silent⟩ ⟨nofun, nofun⟩ 2⟩

end Machine

end R5900
