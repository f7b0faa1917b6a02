import R5900.Proofs.Execute.Interrupt
import R5900.Proofs.SystemControl.Counting
import R5900.Proofs.SystemControl.ExceptionReturn

/-!
# The cycle counter

Every step counts one cycle, however it ends, and latches the timer line if the counter then reaches
the comparison value. Instructions, exceptions and returns change many control registers, but the
counter, the comparison value and the timer line (`SystemControl.SameTimer`) are changed by counting
and by moves to the first two only.

* `Machine.sameTimer_of_step`: a step without such a move does to them what counting does.
* `Machine.timerLine_of_steps`: so after any number of such steps the counter has advanced by that
  number, and the timer line is latched exactly if it was or the counter has reached the comparison
  value on its way.
-/

namespace R5900

namespace SystemControl

variable {s s' s'' : SystemControl}

/-- The control registers `s'` have the counter, the comparison value and the timer line of `s`. -/
structure SameTimer (s s' : SystemControl) : Prop where
  count : s'.get .count = s.get .count
  compare : s'.get .compare = s.get .compare
  line : s'.latches .timer = s.latches .timer

/-! ## What leaves the timer alone -/

theorem SameTimer.refl (s : SystemControl) : s.SameTimer s := ⟨rfl, rfl, rfl⟩

theorem SameTimer.trans (h : s.SameTimer s') (h' : s'.SameTimer s'') : s.SameTimer s'' :=
  ⟨h'.count.trans h.count, h'.compare.trans h.compare, h'.line.trans h.line⟩

theorem sameTimer_put (s : SystemControl) {r : ControlReg} (hcount : r ≠ .count)
    (hcompare : r ≠ .compare) (value : UInt32) : s.SameTimer (s.put r value) :=
  ⟨s.get_put_of_ne value hcount, s.get_put_of_ne value hcompare, rfl⟩

theorem sameTimer_write (s : SystemControl) {r : ControlReg} (hcount : r ≠ .count)
    (hcompare : r ≠ .compare) (value : UInt32) : s.SameTimer (s.write r value) := by
  unfold write
  rw [if_neg hcompare]
  split
  · exact .refl s
  · exact s.sameTimer_put hcount hcompare value

theorem sameTimer_publish (s : SystemControl) : s.SameTimer s.publish :=
  s.sameTimer_put (by decide) (by decide) _

theorem sameTimer_enter (s : SystemControl) (e : Exception) (pc : UInt32) (inDelaySlot : Bool) :
    s.SameTimer (s.enter e pc inDelaySlot) where
  count := get_enter_of_ne e pc inDelaySlot (by decide) (by decide) (by decide) (by decide)
  compare := get_enter_of_ne e pc inDelaySlot (by decide) (by decide) (by decide) (by decide)
  line := congrArg (testBit32 · _) (s.latched_enter e pc inDelaySlot)

theorem sameTimer_exceptionReturn (s : SystemControl) : s.SameTimer s.exceptionReturn.2 where
  count := s.get_exceptionReturn_of_ne (by decide)
  compare := s.get_exceptionReturn_of_ne (by decide)
  line := congrArg (testBit32 · _) s.latched_exceptionReturn

/-! ## Counting -/

/-- Counting a cycle latches the timer line if the counter then reaches the comparison value. -/
theorem latches_countCycles_timer (s : SystemControl) :
    (s.countCycles 1).latches .timer = (s.latches .timer || decide (s.distance = 0)) := by
  have hpasses : s.Passes 1 ↔ s.distance = 0 := (s.passes_iff 1).trans Nat.lt_one_iff
  simp only [countCycles_eq, hpasses]
  by_cases h : s.distance = 0
  · rw [if_pos h, decide_eq_true h, Bool.or_true]
    exact latches_request_self _ _
  · rw [if_neg h, decide_eq_false h, Bool.or_false]
    rfl

/-- Counting does the same to the timer wherever it is the same. -/
theorem SameTimer.countCycles (h : s.SameTimer s') :
    (s.countCycles 1).SameTimer (s'.countCycles 1) where
  count := by rw [get_countCycles, get_countCycles, h.count]
  compare := by
    rw [get_countCycles_of_ne _ _ (by decide), get_countCycles_of_ne _ _ (by decide), h.compare]
  line := by
    rw [latches_countCycles_timer, latches_countCycles_timer, distance, distance, h.line, h.count,
      h.compare]

/-- Counting a cycle takes the counter a cycle closer to the comparison value, until it is reached. -/
theorem distance_countCycles (s : SystemControl) (h : s.distance ≠ 0) :
    (s.countCycles 1).distance + 1 = s.distance :=
  s.distance_countCycles_of_not_passes fun hpasses =>
    h (Nat.lt_one_iff.1 ((s.passes_iff 1).1 hpasses))

end SystemControl

/-! ## Instructions -/

/-- The instruction moves a word to the control register `r`. -/
def Instruction.MovesTo (i : Instruction) (r : ControlReg) : Prop := ∃ rt, i = .moveToControl r rt

/-- An instruction changes the timer only by moving to the counter or the comparison value. -/
theorem Instruction.sameTimer_control {i : Instruction} (hcount : ¬i.MovesTo .count)
    (hcompare : ¬i.MovesTo .compare) (c : Core) : c.control.SameTimer (i.control c) := by
  cases i with
  | moveToControl cd rt =>
    refine c.control.sameTimer_write ?_ ?_ _
    · rintro rfl
      exact hcount ⟨rt, rfl⟩
    · rintro rfl
      exact hcompare ⟨rt, rfl⟩
  | setInterruptEnable value => exact c.control.sameTimer_put (by decide) (by decide) _
  | exceptionReturn => exact c.control.sameTimer_exceptionReturn
  | _ => exact .refl _

/-- Of the instructions, only a move to the comparison value releases the timer line. -/
theorem Instruction.latches_control_timer {i : Instruction} {c : Core} (h : ¬i.MovesTo .compare)
    (hline : c.control.latches .timer = true) : (i.control c).latches .timer = true := by
  cases i with
  | moveToControl cd rt =>
    have hcompare : cd ≠ .compare := by
      rintro rfl
      exact h ⟨rt, rfl⟩
    simp only [control, SystemControl.write, if_neg hcompare]
    split <;> exact hline
  | exceptionReturn =>
    rw [control, c.control.sameTimer_exceptionReturn.line]
    exact hline
  | _ => exact hline

namespace Machine

open SystemControl (SameTimer)

/-! ## Steps -/

/-- The next step executes a move to the control register `r`: it fetches a word that encodes one.
Such a move raises nothing. -/
def MovesTo (m : Machine) (r : ControlReg) : Prop :=
  ∃ word m₁, Width.word.bytes ∣ m.core.pc.toNat ∧
    (Machine.read .word m.core.pc).run m = .done word m₁ ∧ (Instruction.decode word).MovesTo r

theorem Executes.movesTo {m m₁ m₂ : Machine} {word next : UInt32} {r : ControlReg}
    (h : m.Executes word m₁ next m₂) (hmoves : (Instruction.decode word).MovesTo r) :
    m.MovesTo r :=
  ⟨word, m₁, h.aligned, h.read, hmoves⟩

/-- Of the timer, the end of a step counts and does nothing else. -/
theorem sameTimer_finished (m : Machine) :
    (m.core.control.countCycles 1).SameTimer m.finished.core.control := by
  have hpublish := (m.core.control.countCycles 1).sameTimer_publish
  cases hdue : (m.core.control.countCycles 1).publish.interruptDue with
  | true =>
    rw [finished_of_due hdue]
    exact hpublish.trans (SystemControl.sameTimer_enter _ .interrupt m.core.pc m.core.isBranching)
  | false =>
    rw [finished_of_not_due hdue]
    exact hpublish

/-- **A step counts a cycle**, however it ends, and does nothing else to the timer unless its
instruction moves to the counter or the comparison value. -/
theorem sameTimer_of_step {m m' : Machine} (h : m.step = .ok m') (hcount : ¬m.MovesTo .count)
    (hcompare : ¬m.MovesTo .compare) :
    (m.core.control.countCycles 1).SameTimer m'.core.control := by
  rcases step_cases h with ⟨e, m₁, -, hfetches, rfl⟩ | ⟨word, m₁, next, m₂, hexecutes, rfl⟩
  · have henter : m.core.control.SameTimer
        (m₁.delivered e m.core.pc m.core.isBranching).core.control := by
      rw [← hfetches.control]
      exact SystemControl.sameTimer_enter ..
    exact henter.countCycles.trans (sameTimer_finished _)
  · have hmoved : m.core.control.SameTimer (m.moved { m₂ with core.pc := next }).core.control := by
      rw [control_moved, hexecutes.control_eq]
      exact Instruction.sameTimer_control (mt hexecutes.movesTo hcount)
        (mt hexecutes.movesTo hcompare) _
    exact hmoved.countCycles.trans (sameTimer_finished _)

/-- A step keeps a latched timer line latched unless it moves to the comparison value. -/
theorem latches_of_step {m m' : Machine} (h : m.step = .ok m') (hcompare : ¬m.MovesTo .compare)
    (hline : m.core.control.latches .timer = true) : m'.core.control.latches .timer = true := by
  have hfinished : ∀ m₁ : Machine, m₁.core.control.latches .timer = true →
      m₁.finished.core.control.latches .timer = true := by
    intro m₁ hm₁
    rw [(sameTimer_finished m₁).line, SystemControl.latches_countCycles_timer, hm₁, Bool.true_or]
  rcases step_cases h with ⟨e, m₁, -, hfetches, rfl⟩ | ⟨word, m₁, next, m₂, hexecutes, rfl⟩
  · refine hfinished _ ?_
    rw [control_delivered, (SystemControl.sameTimer_enter ..).line, hfetches.control]
    exact hline
  · refine hfinished _ ?_
    rw [control_moved, hexecutes.control_eq]
    exact Instruction.latches_control_timer (mt hexecutes.movesTo hcompare) hline

/-! ## Runs -/

/-- **The timer line over a run.** Take any machine and any number of steps none of which moves to
the counter or the comparison value; they may fault, trap, be interrupted, return from exceptions or
skip delay slots. The counter has then advanced by their number, modulo `2 ^ 32`, and the timer line
is latched exactly if it was or the counter has reached the comparison value, which takes from 1 to
`2 ^ 32` steps. No step whatever releases the line but one that moves to the comparison value. -/
theorem timerLine_of_steps (m : Machine) (n : Nat)
    (h : ∀ i < n, ∀ mᵢ, steps i m = .ok mᵢ → ¬mᵢ.MovesTo .count ∧ ¬mᵢ.MovesTo .compare) :
    (∃ m', steps n m = .ok m' ∧
      (m'.core.control.get .count).toNat = ((m.core.control.get .count).toNat + n) % 2 ^ 32 ∧
      (m'.core.control.latches .timer = true ↔ m.core.control.latches .timer = true ∨
        (m.core.control.get .compare - m.core.control.get .count - 1).toNat + 1 ≤ n)) ∧
    ∀ m₁ m₂ : Machine, m₁.step = .ok m₂ → ¬m₁.MovesTo .compare →
      m₁.core.control.latches .timer = true → m₂.core.control.latches .timer = true := by
  refine ⟨?_, fun m₁ m₂ => latches_of_step⟩
  induction n generalizing m with
  | zero =>
    refine ⟨m, rfl, (Nat.mod_eq_of_lt (UInt32.toNat_lt _)).symm, ?_⟩
    simp
  | succ n ih =>
    obtain ⟨m₁, hstep, -⟩ := m.step_eq_ok
    have hfirst := h 0 (Nat.succ_pos n) m rfl
    have hsteps : ∀ i, steps (i + 1) m = steps i m₁ := fun i => by rw [steps, hstep]; rfl
    obtain ⟨m', hrun, hcount, hline⟩ := ih m₁ fun i hi mᵢ hmᵢ =>
      h (i + 1) (Nat.succ_lt_succ hi) mᵢ ((hsteps i).trans hmᵢ)
    have hsame := sameTimer_of_step hstep hfirst.1 hfirst.2
    refine ⟨m', (hsteps n).trans hrun, ?_, ?_⟩
    · rw [hcount, hsame.count, SystemControl.get_countCycles, UInt32.toNat_add, UInt32.toNat_one]
      omega
    · have hdistance : m₁.core.control.distance = (m.core.control.countCycles 1).distance := by
        rw [SystemControl.distance, hsame.count, hsame.compare, SystemControl.distance]
      have hlast := m.core.control.distance_countCycles
      rw [hline, hsame.line, SystemControl.latches_countCycles_timer, Bool.or_eq_true,
        decide_eq_true_iff, or_assoc]
      refine or_congr_right ?_
      show _ ∨ m₁.core.control.distance + 1 ≤ n ↔ m.core.control.distance + 1 ≤ n + 1
      rw [hdistance]
      omega

/-- A step that cannot even fetch counts across the end of the counter and latches the line. -/
theorem timerLine_of_steps_misaligned :
    let control := SystemControl.initial.put .count 0xFFFFFFFF
    let m : Machine := ⟨{ Core.initial with pc := 2, control := control }, Bus.initial, .silent⟩
    (∀ i < 1, ∀ mᵢ, steps i m = .ok mᵢ → ¬mᵢ.MovesTo .count ∧ ¬mᵢ.MovesTo .compare) ∧
    (∃ m', steps 1 m = .ok m' ∧
      (m'.core.control.get .count).toNat = ((m.core.control.get .count).toNat + 1) % 2 ^ 32 ∧
      (m'.core.control.latches .timer = true ↔ m.core.control.latches .timer = true ∨
        (m.core.control.get .compare - m.core.control.get .count - 1).toNat + 1 ≤ 1)) ∧
    ∀ m₁ m₂ : Machine, m₁.step = .ok m₂ → ¬m₁.MovesTo .compare →
      m₁.core.control.latches .timer = true → m₂.core.control.latches .timer = true := by
  intro control m
  have hquiet : ∀ i < 1, ∀ mᵢ, steps i m = .ok mᵢ →
      ¬mᵢ.MovesTo .count ∧ ¬mᵢ.MovesTo .compare := by
    intro i hi mᵢ hmᵢ
    obtain rfl := Nat.lt_one_iff.1 hi
    obtain rfl : m = mᵢ := Except.ok.inj hmᵢ
    have hpc : ¬Width.word.bytes ∣ m.core.pc.toNat := by decide
    exact ⟨fun ⟨_, _, haligned, _⟩ => hpc haligned, fun ⟨_, _, haligned, _⟩ => hpc haligned⟩
  exact ⟨hquiet, timerLine_of_steps m 1 hquiet⟩

end Machine

end R5900
