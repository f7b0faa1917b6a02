import R5900.Core

/-!
# General registers and the multiply result

What a general register holds after a write to another one or to itself, by quadwords
(`Core.quad_setQuad_self`, `Core.quad_setQuad_of_ne`) and by the low doublewords that most
instructions see, and what a pipeline finds in the multiply result after a write of the same or the
other one (`Pipeline.part_replace`). Writes to different registers commute, and so do writes of
different pipelines (`Core.setDouble_comm`, `Pipeline.replace_comm`).
-/

namespace R5900

namespace Core

variable {c c' : Core}

/-! ## Quadwords -/

theorem setQuad_zero (c : Core) (value : Quad) : c.setQuad .zero value = c := if_pos rfl

/-- A write to any other register replaces it. -/
theorem setQuad_eq (c : Core) {r : Gpr} (h : r ≠ .zero) (value : Quad) :
    c.setQuad r value =
      { c with registers := c.registers.set r.index value r.index.isLt } :=
  if_neg fun h0 => h (congrArg Gpr.mk (Fin.ext h0))

theorem quad_setQuad_self (c : Core) {r : Gpr} (h : r ≠ .zero) (value : Quad) :
    (c.setQuad r value).quad r = value := by
  rw [c.setQuad_eq h]
  exact Vector.getElem_set_self r.index.isLt

theorem quad_setQuad_of_ne (c : Core) {r r' : Gpr} (h : r ≠ r') (value : Quad) :
    (c.setQuad r value).quad r' = c.quad r' := by
  have hindex : r.index.val ≠ r'.index.val := fun heq => h (congrArg Gpr.mk (Fin.ext heq))
  rw [setQuad]
  split
  · rfl
  · exact Vector.getElem_set_ne r.index.isLt r'.index.isLt hindex

/-! ## Doublewords -/

section Doubles

variable (r : Gpr)

theorem registers_setDouble_congr (h : c'.registers = c.registers) (value : UInt64) :
    (c'.setDouble r value).registers = (c.setDouble r value).registers := by
  simp only [setDouble, setQuad, quad, h]
  split
  · exact h
  · rfl

/-- Of two writes to a register the second stays. -/
theorem setDouble_setDouble (c : Core) (r : Gpr) (value value' : UInt64) :
    (c.setDouble r value).setDouble r value' = c.setDouble r value' := by
  simp only [setDouble, setQuad, quad]
  split
  · rfl
  · simp [Quad.withLow]

theorem double_congr (h : c'.registers = c.registers) : c'.double r = c.double r := by
  rw [double, quad, h]
  rfl

theorem word_congr (h : c'.registers = c.registers) : c'.word r = c.word r := by
  rw [word, double_congr r h]
  rfl

theorem double_setDouble_self (c : Core) {r : Gpr} (h : r ≠ .zero) (value : UInt64) :
    (c.setDouble r value).double r = value :=
  congrArg Quad.lo (c.quad_setQuad_self h _)

theorem double_setDouble_of_ne (c : Core) {r r' : Gpr} (h : r ≠ r') (value : UInt64) :
    (c.setDouble r value).double r' = c.double r' :=
  congrArg Quad.lo (c.quad_setQuad_of_ne h _)

/-- A write of a doubleword keeps all high doublewords. -/
theorem hi_quad_setDouble (c : Core) (r r' : Gpr) (value : UInt64) :
    ((c.setDouble r value).quad r').hi = (c.quad r').hi := by
  by_cases hne : r = r'
  · subst hne
    by_cases hr : r = .zero
    · rw [hr, setDouble, setQuad_zero]
    · rw [setDouble, c.quad_setQuad_self hr]
      rfl
  · rw [setDouble, c.quad_setQuad_of_ne hne]

theorem setDouble_zero (c : Core) (value : UInt64) : c.setDouble .zero value = c :=
  c.setQuad_zero _

/-- A write to a register changes the registers only, and depends on them only. -/
theorem setDouble_eq_of_registers (h : c'.registers = c.registers) (value : UInt64) :
    c'.setDouble r value = { c' with registers := (c.setDouble r value).registers } := by
  rw [← registers_setDouble_congr r h]
  unfold setDouble setQuad
  split <;> rfl

/-- Writes to two registers that are not the same, unless it is zero, commute. -/
theorem setDouble_comm (c : Core) {r r' : Gpr} (h : r = r' → r = .zero) (value value' : UInt64) :
    (c.setDouble r value).setDouble r' value' = (c.setDouble r' value').setDouble r value := by
  by_cases hr : r = .zero
  · rw [hr, setDouble_zero, setDouble_zero]
  by_cases hr' : r' = .zero
  · rw [hr', setDouble_zero, setDouble_zero]
  have hne : r ≠ r' := fun heq => hr (h heq)
  have hindex : r.index.val ≠ r'.index.val := fun heq => hne (congrArg Gpr.mk (Fin.ext heq))
  unfold setDouble
  rw [quad_setQuad_of_ne c hne, quad_setQuad_of_ne c hne.symm]
  simp only [setQuad_eq _ hr, setQuad_eq _ hr', Vector.set_comm _ _ hindex]

end Doubles

end Core

/-! ## The multiply result -/

namespace Pipeline

variable {p p' : Pipeline}

theorem replace_part (pipe : Pipeline) (q : Quad) : pipe.replace q (pipe.part q) = q := by
  cases pipe <;> rfl

theorem part_replace (p pipe : Pipeline) (q : Quad) (value : UInt64) :
    p.part (pipe.replace q value) = if p = pipe then value else p.part q := by
  cases p <;> cases pipe <;> rfl

theorem part_replace_self (pipe : Pipeline) (q : Quad) (value : UInt64) :
    pipe.part (pipe.replace q value) = value := by
  rw [part_replace, if_pos rfl]

theorem part_replace_of_ne (h : p' ≠ p) (q : Quad) (value : UInt64) :
    p'.part (p.replace q value) = p'.part q := by
  rw [part_replace, if_neg h]

/-- Writes of the two pipelines to a quadword commute. -/
theorem replace_comm (h : p ≠ p') (q : Quad) (value value' : UInt64) :
    p'.replace (p.replace q value) value' = p.replace (p'.replace q value') value := by
  cases p <;> cases p'
  · exact absurd rfl h
  · rfl
  · rfl
  · exact absurd rfl h

end Pipeline

end R5900
