import R5900.Proofs.Device.WellFormed
import R5900.Proofs.Execute.Interrupt

/-!
# What every step keeps

The processor never writes its zero register, counts down to a pending branch from one, keeps the
identification register and latches the lines of the interrupt controller and of the timer only
(`Core.WellFormed`). No instruction, exception or interrupt changes that, and an access on the bus
keeps the devices well formed and boot memory as it is; so a step keeps all of it, and settles the
mode by the status register (`Machine.wellFormed_step`).
-/

namespace R5900

open Exec

/-! ## Control registers -/

namespace SystemControl

/-- The lines of the interrupt controller and of the timer. -/
def usedLines : UInt32 := 0x8400

/-- The identification register has its fixed value, and no line is latched that nothing drives. -/
structure WellFormed (s : SystemControl) : Prop where
  prId : s.get .prId = processorId
  latched : s.latched &&& ~~~usedLines = 0

variable {s : SystemControl}

theorem wellFormed_initial : initial.WellFormed := ⟨by decide, by decide⟩

theorem wellFormed_put (hs : s.WellFormed) {r : ControlReg} (value : UInt32) (h : r ≠ .prId) :
    (s.put r value).WellFormed :=
  ⟨(s.get_put_of_ne value h).trans hs.prId, hs.latched⟩

theorem wellFormed_setStatus (hs : s.WellFormed) (status : Status) :
    (s.setStatus status).WellFormed :=
  wellFormed_put hs _ (by decide)

theorem wellFormed_setCause (hs : s.WellFormed) (cause : Cause) : (s.setCause cause).WellFormed :=
  wellFormed_put hs _ (by decide)

theorem wellFormed_request (hs : s.WellFormed) {line : Line} (h : line ≠ .int1) :
    (s.request line).WellFormed := by
  refine ⟨hs.prId, eq_of_testBit32 fun p => ?_⟩
  have hbit := congrArg (testBit32 · p) hs.latched
  have hline : testBit32 ((1 <<< line.position) &&& ~~~usedLines) p = false := by
    have hnone : (1 <<< line.position) &&& ~~~usedLines = 0 := by
      cases line <;> first | decide | exact absurd rfl h
    rw [hnone, testBit32_zero]
  simp only [testBit32_and, testBit32_zero] at hbit hline
  simp only [request, testBit32_and, testBit32_or, testBit32_zero, Bool.and_or_distrib_right, hbit,
    hline, Bool.or_false]

theorem wellFormed_release (hs : s.WellFormed) (line : Line) : (s.release line).WellFormed := by
  refine ⟨hs.prId, ?_⟩
  show s.latched &&& ~~~(1 <<< line.position) &&& ~~~usedLines = 0
  rw [UInt32.and_assoc, UInt32.and_comm (~~~(1 <<< line.position)), ← UInt32.and_assoc, hs.latched,
    UInt32.zero_and]

theorem wellFormed_write (hs : s.WellFormed) (r : ControlReg) (value : UInt32) :
    (s.write r value).WellFormed := by
  unfold write
  split
  · exact hs
  · rename_i h
    split
    · exact wellFormed_release (wellFormed_put hs value h) .timer
    · exact wellFormed_put hs value h

theorem wellFormed_countCycles (hs : s.WellFormed) (cycles : UInt32) :
    (s.countCycles cycles).WellFormed := by
  have hcount := wellFormed_put hs (r := .count) (s.get .count + cycles) (by decide)
  unfold countCycles
  dsimp only
  split
  · exact wellFormed_request hcount (by decide)
  · exact hcount

theorem wellFormed_publish (hs : s.WellFormed) : s.publish.WellFormed :=
  wellFormed_setCause hs _

theorem wellFormed_enter (hs : s.WellFormed) (e : Exception) (pc : UInt32) (inDelaySlot : Bool) :
    (s.enter e pc inDelaySlot).WellFormed := by
  have haddress : (s.withBadAddress e).WellFormed := by
    unfold withBadAddress
    split
    · exact wellFormed_put hs _ (by decide)
    · exact hs
  cases h : s.status.exceptionLevel with
  | true =>
    rw [s.enter_of_nested h]
    exact wellFormed_setCause haddress _
  | false =>
    rw [s.enter_of_outermost h]
    exact wellFormed_setCause (wellFormed_setStatus (wellFormed_put haddress _ (by decide)) _) _

theorem wellFormed_exceptionReturn (hs : s.WellFormed) : s.exceptionReturn.2.WellFormed := by
  unfold exceptionReturn
  split <;> exact wellFormed_setStatus hs _

end SystemControl

/-- An instruction keeps the control registers well formed. -/
theorem Instruction.wellFormed_control (i : Instruction) {c : Core} (hc : c.control.WellFormed) :
    (i.control c).WellFormed := by
  cases i with
  | moveToControl cd rt => exact SystemControl.wellFormed_write hc cd _
  | setInterruptEnable value => exact SystemControl.wellFormed_setStatus hc _
  | exceptionReturn => exact SystemControl.wellFormed_exceptionReturn hc
  | _ => exact hc

/-! ## The zero register -/

theorem Core.zero_setQuad (c : Core) (r : Gpr) (value : Quad) :
    (c.setQuad r value).registers[0] = c.registers[0] := by
  unfold setQuad
  split
  · rfl
  · rename_i h
    exact Vector.getElem_set_ne r.index.isLt _ h

/-- No instruction changes the zero register, even if it is the destination. -/
theorem Instruction.zero_of_execute (i : Instruction) (pc : UInt32) (m : Machine) :
    (i.execute pc).Ensures m fun _ m' => m'.core.quad .zero = m.core.quad .zero :=
  (writes_of_execute i pc m).mono fun _ _ h => h.quad .zero fun _ => rfl

/-! ## The processor -/

/-- What the processor keeps at every point of a step: its zero register is zero, the count of the
delay slot is one if a branch is pending and otherwise zero, and the control registers are well
formed. -/
structure Core.WellFormed (c : Core) : Prop where
  zero : c.quad .zero = Quad.zero
  delaySlot : c.delaySlot = if c.isBranching then 1 else 0
  control : c.control.WellFormed

namespace Core

theorem wellFormed_initial : initial.WellFormed :=
  ⟨Vector.getElem_replicate _, rfl, SystemControl.wellFormed_initial⟩

variable {c : Core}

/-- Setting registers keeps the processor well formed. -/
theorem wellFormed_set (hc : c.WellFormed) (r : Reg) (value : Quad) :
    (c.set r value).WellFormed := by
  cases r with
  | gpr r =>
    refine ⟨(c.zero_setQuad r value).trans hc.zero, ?_, ?_⟩
    · show (c.setQuad r value).sequencing.delaySlot =
        if (c.setQuad r value).sequencing.isBranching then 1 else 0
      rw [sequencing_setQuad]
      exact hc.delaySlot
    · show (c.setQuad r value).control.WellFormed
      rw [control_setQuad]
      exact hc.control
  | lo => exact ⟨hc.zero, hc.delaySlot, hc.control⟩
  | hi => exact ⟨hc.zero, hc.delaySlot, hc.control⟩

end Core

namespace Machine

variable {m : Machine}

theorem wellFormed_fetched (hm : m.core.WellFormed) (word : UInt32) :
    (fetchedCore m.entering.core m.core.isBranching word).WellFormed := by
  unfold entering fetchedCore
  cases m.core.isBranching with
  | true => exact ⟨hm.zero, rfl, hm.control⟩
  | false => exact ⟨hm.zero, hm.delaySlot, hm.control⟩

/-- An instruction that is done counts down from one to the branch that it leaves pending. -/
theorem delaySlot_of_effect {i : Instruction} {pc next : UInt32} {m' : Machine}
    (hm : m.core.WellFormed) (h : i.Effect pc m next m') :
    m'.core.delaySlot = if m'.core.isBranching then 1 else 0 := by
  have hslot : m.core.delaySlot = if m.core.isBranching then 1 else 0 := hm.delaySlot
  have hsame : ∀ {c : Core}, c.sequencing = m.core.sequencing →
      c.delaySlot = if c.isBranching then 1 else 0 := by
    intro c hc
    show c.sequencing.delaySlot = if c.sequencing.isBranching then 1 else 0
    rw [hc]
    exact hslot
  rw [Instruction.Effect] at h
  split at h
  · exact hsame h.2
  · rw [h.2]
    rfl
  · rw [h.2]
    exact hsame (Core.sequencing_link ..)
  · rw [h.2]
    exact hslot

theorem Executes.wellFormed {m₁ m₂ : Machine} {word next : UInt32} (hm : m.core.WellFormed)
    (h : m.Executes word m₁ next m₂) : m₂.core.WellFormed := by
  have hfetched := wellFormed_fetched hm word
  obtain ⟨journal, hrun⟩ := h.executed
  obtain ⟨journal', hcompletes⟩ := h.completes
  refine ⟨?_, delaySlot_of_effect hfetched hcompletes.effect, ?_⟩
  · exact (Instruction.zero_of_execute _ _ _ _ _ hrun).trans hfetched.zero
  · rw [h.control_eq]
    exact Instruction.wellFormed_control _ hm.control

theorem wellFormed_delivered (hzero : m.core.quad .zero = Quad.zero)
    (hcontrol : m.core.control.WellFormed) (e : Exception) (pc : UInt32) (inDelaySlot : Bool) :
    (m.delivered e pc inDelaySlot).core.WellFormed :=
  ⟨hzero, rfl, SystemControl.wellFormed_enter hcontrol e pc inDelaySlot⟩

/-- The end of a step keeps the processor well formed. -/
theorem wellFormed_finished (hm : m.core.WellFormed) : m.finished.core.WellFormed := by
  have hcount : m.countCycle.core.WellFormed := ⟨hm.zero, hm.delaySlot,
    SystemControl.wellFormed_publish (SystemControl.wellFormed_countCycles hm.control 1)⟩
  have hinterrupt : m.countCycle.interrupted.core.WellFormed := by
    unfold interrupted
    split
    · exact wellFormed_delivered hcount.zero hcount.control ..
    · exact hcount
  exact ⟨hinterrupt.zero, hinterrupt.delaySlot, hinterrupt.control⟩

theorem wellFormed_moved (hm : m.core.WellFormed) (m' : Machine) (next : UInt32) :
    (m'.moved { m with core.pc := next }).core.WellFormed := by
  unfold moved
  split <;> exact ⟨hm.zero, hm.delaySlot, hm.control⟩

/-- A step keeps the processor well formed. -/
theorem core_wellFormed_of_step {m' : Machine} (hm : m.core.WellFormed) (h : m.step = .ok m') :
    m'.core.WellFormed := by
  rcases step_cases h with ⟨e, m₁, -, hfetches, rfl⟩ | ⟨word, m₁, next, m₂, hexecutes, rfl⟩
  · -- of the attempt, only the registers count here: delivery cancels a pending branch
    refine wellFormed_finished (wellFormed_delivered ?_ ?_ ..)
    · rw [Core.quad, hfetches.registers]
      exact hm.zero
    · rw [hfetches.control]
      exact hm.control
  · exact wellFormed_finished (wellFormed_moved (hexecutes.wellFormed hm) m next)

/-- A step settles the mode by the status register. -/
theorem mode_of_step {m' : Machine} (h : m.step = .ok m') :
    m'.core.mode = m'.core.control.mode := by
  rcases step_cases h with ⟨e, m₁, -, -, rfl⟩ | ⟨word, m₁, next, m₂, -, rfl⟩ <;> rfl

end Machine

/-! ## The bus -/

namespace Bus

/-- The devices on the bus are well formed, and boot memory holds the image `boot`. -/
structure WellFormed (boot : Memory bootSize) (b : Bus) : Prop where
  devices : b.devices.WellFormed
  boot : b.boot = boot

variable {boot : Memory bootSize} {w : Width} {b : Bus} {a : UInt32}

theorem wellFormed_read {r : BusReply w.Value} (hb : b.WellFormed boot) (h : b.read w a = .ok r) :
    r.bus.WellFormed boot := by
  rcases exists_of_read h with hbus | ⟨unit, r', -, hr, hbus⟩ <;> rw [hbus]
  · exact hb
  · exact ⟨Bank.wellFormed_read hb.devices hr, hb.boot⟩

theorem wellFormed_write {value : w.Value} {r : BusReply Unit} (hb : b.WellFormed boot)
    (h : b.write w a value = .ok r) : r.bus.WellFormed boot := by
  rcases exists_of_write h with ⟨-, main, iop, hbus⟩ | ⟨unit, r', -, hr, hbus⟩ <;> rw [hbus]
  · exact ⟨hb.devices, hb.boot⟩
  · exact ⟨Bank.wellFormed_write hb.devices hr, hb.boot⟩

theorem Accessed.wellFormed {b' : Bus} (h : b.Accessed b') (hb : b.WellFormed boot) :
    b'.WellFormed boot :=
  h.keeps wellFormed_read wellFormed_write hb

end Bus

/-! ## The machine -/

/-- What a machine with the image `boot` in boot memory keeps from step to step. -/
structure Machine.WellFormed (boot : Memory bootSize) (m : Machine) : Prop where
  core : m.core.WellFormed
  mode : m.core.mode = m.core.control.mode
  bus : m.bus.WellFormed boot

/-- **A step keeps the machine well formed.** -/
theorem Machine.wellFormed_step {boot : Memory bootSize} {m m' : Machine} (hm : m.WellFormed boot)
    (h : m.step = .ok m') : m'.WellFormed boot := by
  obtain ⟨m₁, hstep, haccessed⟩ := m.step_eq_ok
  rw [h] at hstep
  cases hstep
  exact ⟨core_wellFormed_of_step hm.core h, mode_of_step h, haccessed.wellFormed hm.bus⟩

end R5900
