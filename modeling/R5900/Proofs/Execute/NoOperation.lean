import R5900.Proofs.Execute.Instruction
import R5900.Proofs.Register
import R5900.Proofs.Word.SignExtend

/-!
# Instructions that are listed as doing nothing

A listing marks three forms of instructions as doing nothing: a left shift into the zero register,
and adding or joining zero to a register in place. The sum is one of words, and a word is written
sign-extended; so adding zero in place leaves the register alone only if its low doubleword is the
sign extension of its low word already.

* `Instruction.isNop_iff`: the three forms.
* `Core.setWord_word_iff`: writing the low word of a register back is no change exactly if the low
  doubleword is its sign extension.
* `Instruction.interpret_nop`: what a marked instruction does, and exactly when that is nothing.
-/

namespace R5900

open Exec

/-! ## Writing a register back -/

namespace Core

theorem setDouble_double (c : Core) (r : Gpr) : c.setDouble r (c.double r) = c := by
  by_cases hr : r = .zero
  · rw [hr, setDouble_zero]
  · have hself : c.registers.set r.index (c.quad r) = c.registers := by
      simp [quad]
    rw [setDouble, setQuad_eq c hr]
    show { c with registers := c.registers.set r.index (c.quad r) } = c
    rw [hself]

/-- Writing the low word of a register back is no change exactly if it is written to the zero
register, or to one whose low doubleword is the sign extension of its low word. -/
theorem setWord_word_iff (c : Core) (r : Gpr) :
    c.setWord r (c.word r) = c ↔ r = .zero ∨ SignExtended (c.double r) := by
  by_cases hr : r = .zero
  · rw [hr, setWord, setDouble_zero]
    exact iff_of_true rfl (.inl rfl)
  · rw [or_iff_right hr, setWord, SignExtended]
    constructor
    · intro h
      have hdouble := c.double_setDouble_self hr (signExtend32 (c.word r))
      rw [h] at hdouble
      exact hdouble.symm
    · intro h
      show c.setDouble r (signExtend32 (c.double r).toUInt32) = c
      rw [h, setDouble_double]

end Core

namespace Instruction

/-! ## The forms -/

/-- A listing marks these instructions as doing nothing. -/
theorem isNop_iff (i : Instruction) : i.isNop = true ↔
    (∃ rt amount, i = .shift .sll .zero rt amount) ∨ (∃ r, i = .aluImm .addiu r r 0) ∨
      ∃ r, i = .aluImm .ori r r 0 := by
  constructor
  · intro h
    unfold isNop at h
    split at h
    case h_1 rd rt amount => exact .inl ⟨rt, amount, by rw [of_decide_eq_true h]⟩
    case h_2 rt rs imm =>
      obtain ⟨himm, heq⟩ := Bool.and_eq_true_iff.1 h
      exact .inr (.inl ⟨rt, by rw [of_decide_eq_true himm, of_decide_eq_true heq]⟩)
    case h_3 rt rs imm =>
      obtain ⟨himm, heq⟩ := Bool.and_eq_true_iff.1 h
      exact .inr (.inr ⟨rt, by rw [of_decide_eq_true himm, of_decide_eq_true heq]⟩)
    case h_4 => cases h
  · rintro (⟨rt, amount, rfl⟩ | ⟨r, rfl⟩ | ⟨r, rfl⟩) <;> simp [isNop]

/-- The instruction adds zero in place to a register that holds no sign-extended word. -/
def Truncates (i : Instruction) (c : Core) : Prop :=
  ∃ r, i = .aluImm .addiu r r 0 ∧ ¬SignExtended (c.double r)

/-! ## What they do -/

section Runs

variable (m : Machine)

/-- A left shift into the zero register only moves on. -/
theorem run_shift_zero (rt : Gpr) {amount : UInt8} (h : amount < 32) :
    (shift .sll .zero rt amount).interpret.run m =
      .done () { m with core.pc := m.core.pc + 4 } := by
  obtain ⟨v, hv⟩ := ShiftOp.eval_eq_ok .sll (m.core.double rt) h
  have hrun : (execute (.shift .sll .zero rt amount) m.core.pc).run m =
      .done (m.core.pc + 4) m := by
    simp only [execute, setChecked, bind_bind, run_ofCore_bind, run_ofChecked_bind hv,
      run_onCore_bind, run_pure, Core.setDouble_zero]
  exact interpret_of_execute hrun

/-- Joining zero to a register in place only moves on. -/
theorem run_join_zero (r : Gpr) :
    (aluImm .ori r r 0).interpret.run m = .done () { m with core.pc := m.core.pc + 4 } := by
  have hvalue : ImmOp.eval .ori (m.core.double r) 0 = m.core.double r := UInt64.or_zero
  have hrun : (execute (.aluImm .ori r r 0) m.core.pc).run m = .done (m.core.pc + 4) m := by
    simp only [execute, run_onCore_bind, run_pure, hvalue, Core.setDouble_double]
  exact interpret_of_execute hrun

/-- Adding zero to a register in place writes its low word back, and moves on. -/
theorem run_add_zero (r : Gpr) : (aluImm .addiu r r 0).interpret.run m =
    .done () { m with core := { m.core.setWord r (m.core.word r) with pc := m.core.pc + 4 } } := by
  have hvalue : ImmOp.eval .addiu (m.core.double r) 0 = signExtend32 (m.core.word r) :=
    congrArg signExtend32 (UInt32.add_zero _)
  have hrun : (execute (.aluImm .addiu r r 0) m.core.pc).run m =
      .done (m.core.pc + 4) { m with core := m.core.setWord r (m.core.word r) } := by
    simp only [execute, run_onCore_bind, run_pure, hvalue, Core.setWord]
  exact interpret_of_execute hrun

end Runs

/-- Adding zero in place only moves on exactly if it writes back what the register held. -/
theorem run_add_zero_iff (r : Gpr) (m : Machine) : (aluImm .addiu r r 0).interpret.run m =
      .done () { m with core.pc := m.core.pc + 4 } ↔
    m.core.setWord r (m.core.word r) = m.core := by
  rw [run_add_zero]
  constructor
  · intro h
    have hregisters : (m.core.setWord r (m.core.word r)).registers = m.core.registers := by
      injection h with _ hmachine
      exact congrArg (·.core.registers) hmachine
    rw [Core.setWord, Core.setDouble_eq_of_registers r rfl]
    exact congrArg (fun registers => { m.core with registers := registers }) hregisters
  · intro h
    rw [h]

/-- **What is listed as doing nothing does nothing, unless it truncates a register.** On a machine
whose zero register holds zero, a marked instruction moves the program counter on and changes
nothing else, except for the addition of zero in place to a register whose low doubleword is not the
sign extension of its low word: that writes the low word back sign-extended, and no more. -/
theorem interpret_nop {w : UInt32} (hnop : (decode w).isNop = true) (m : Machine)
    (hzero : m.core.quad .zero = .zero) :
    ((decode w).interpret.run m = .done () { m with core.pc := m.core.pc + 4 } ↔
        ¬(decode w).Truncates m.core) ∧
      ∀ r, decode w = .aluImm .addiu r r 0 → (decode w).interpret.run m = .done () { m with core :=
        { m.core.setWord r (m.core.word r) with pc := m.core.pc + 4 } } := by
  refine ⟨?_, fun r hw => hw ▸ run_add_zero m r⟩
  rcases (isNop_iff _).1 hnop with ⟨rt, amount, hw⟩ | ⟨r, hw⟩ | ⟨r, hw⟩
  · have hamount : amount < 32 := by
      have hfits := decode_shiftsFit w
      rw [hw] at hfits
      exact hfits
    rw [hw]
    refine iff_of_true (run_shift_zero m rt hamount) ?_
    rintro ⟨r, heq, -⟩
    cases heq
  · rw [hw, run_add_zero_iff, Core.setWord_word_iff]
    have hdouble : SignExtended (m.core.double .zero) := by
      rw [Core.double, hzero]
      exact signExtended_zero
    constructor
    · rintro h ⟨r', heq, hnot⟩
      cases heq
      rcases h with rfl | h
      · exact hnot hdouble
      · exact hnot h
    · intro h
      exact .inr (not_not.1 fun hnot => h ⟨r, rfl, hnot⟩)
  · rw [hw]
    refine iff_of_true (run_join_zero m r) ?_
    rintro ⟨r', heq, -⟩
    cases heq

/-- `ADDIU t0, t0, 0` where `t0` holds `2 ^ 32`, and where it holds minus one. -/
theorem interpret_nop_addiu :
    let truncated : Machine := ⟨Core.initial.setDouble ⟨8⟩ 0x100000000, .initial, .silent⟩
    let kept : Machine := ⟨Core.initial.setWord ⟨8⟩ 0xFFFFFFFF, .initial, .silent⟩
    let i := decode 0x25080000
    i.isNop = true ∧
      (truncated.core.quad .zero = .zero ∧ i.Truncates truncated.core ∧
        truncated.core.word ⟨8⟩ = 0 ∧ i.interpret.run truncated = .done () { truncated with core :=
          { truncated.core.setWord ⟨8⟩ (truncated.core.word ⟨8⟩) with
            pc := truncated.core.pc + 4 } }) ∧
      kept.core.quad .zero = .zero ∧ ¬i.Truncates kept.core ∧
        i.interpret.run kept = .done () { kept with core.pc := kept.core.pc + 4 } := by
  intro truncated kept i
  have hnop : i.isNop = true := by decide
  have haddiu : i = .aluImm .addiu ⟨8⟩ ⟨8⟩ 0 := by decide
  have htruncated : truncated.core.quad .zero = .zero := by decide +kernel
  have hkept : kept.core.quad .zero = .zero := by decide +kernel
  have hnot : ¬i.Truncates kept.core := by
    rintro ⟨r, heq, hnot⟩
    cases haddiu.symm.trans heq
    exact hnot (by decide +kernel)
  exact ⟨hnop, ⟨htruncated, ⟨⟨8⟩, haddiu, by decide +kernel⟩, by decide +kernel,
    (interpret_nop hnop truncated htruncated).2 ⟨8⟩ haddiu⟩, hkept, hnot,
    (interpret_nop hnop kept hkept).1.2 hnot⟩

/-- `ADDIU t0, t0, 0` is listed as doing nothing, and clears the high word of `t0`. -/
theorem nop_truncates_register :
    let m : Machine := ⟨Core.initial.setDouble ⟨8⟩ 0x100000000, .initial, .silent⟩
    (decode 0x25080000).isNop = true ∧ m.core.quad .zero = .zero ∧
      m.core.double ⟨8⟩ = 0x100000000 ∧
      ∃ m', (decode 0x25080000).interpret.run m = .done () m' ∧ m'.core.double ⟨8⟩ = 0 := by
  intro m
  have haddiu : decode 0x25080000 = .aluImm .addiu ⟨8⟩ ⟨8⟩ 0 := by decide
  refine ⟨by decide, by decide +kernel, by decide +kernel, _, haddiu ▸ run_add_zero m ⟨8⟩, ?_⟩
  decide +kernel

end Instruction

end R5900
