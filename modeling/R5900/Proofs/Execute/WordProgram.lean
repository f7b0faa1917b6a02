import R5900.Proofs.Bus.Access
import R5900.Proofs.Execute.Instruction
import R5900.Proofs.Postcondition
import R5900.Proofs.Register
import R5900.Proofs.Word.SignExtend

/-!
# Programs of word instructions

A program for the 32-bit architecture keeps all its values as sign-extended words, and then the
comparisons of doublewords that the processor makes come out as comparisons of words.

* `Core.Canonical`: the low doublewords of the general registers and all doublewords of the multiply
  result are sign-extended words. Every instruction but the wide ones (`Instruction.isWide`) keeps
  this (`Instruction.canonical_of_execute`).
* `Instruction.executeOnWords`: the action of an instruction that compares words.
* `Machine.interpretAll_canonical`: after any sequence of instructions that are not wide, the
  registers are canonical, and every instruction does what it does when it compares words.
-/

namespace R5900

open Exec

/-! ## Canonical registers -/

/-- The low doublewords of the general registers and all doublewords of the multiply result are
sign-extended words. -/
structure Core.Canonical (c : Core) : Prop where
  double : ∀ r, SignExtended (c.double r)
  hi : ∀ pipe : Pipeline, SignExtended (pipe.part c.hi)
  lo : ∀ pipe : Pipeline, SignExtended (pipe.part c.lo)

/-- The registers of a reset processor are canonical. -/
theorem Core.canonical_initial : Core.initial.Canonical := by
  refine ⟨fun r => ?_, fun pipe => ?_, fun pipe => ?_⟩
  · have hquad : Core.initial.quad r = Quad.zero := Vector.getElem_replicate r.index.isLt
    rw [Core.double, hquad]
    exact signExtended_zero
  · cases pipe <;> exact signExtended_zero
  · cases pipe <;> exact signExtended_zero

namespace Core.Canonical

variable {c : Core} (h : c.Canonical)
include h

/-- Whether a core is canonical depends on its general registers and its multiply result only. -/
theorem congr {c' : Core} (hregisters : c'.registers = c.registers) (hhi : c'.hi = c.hi)
    (hlo : c'.lo = c.lo) : c'.Canonical := by
  refine ⟨fun r => ?_, fun pipe => ?_, fun pipe => ?_⟩
  · rw [Core.double, Core.quad, hregisters]
    exact h.double r
  · rw [hhi]
    exact h.hi pipe
  · rw [hlo]
    exact h.lo pipe

theorem setQuad (r : Gpr) {value : Quad} (hvalue : SignExtended value.lo) :
    (c.setQuad r value).Canonical := by
  unfold Core.setQuad
  split
  · exact h
  · refine ⟨fun r' => ?_, h.hi, h.lo⟩
    show SignExtended ((c.registers.set r.index value)[r'.index.val]).lo
    rw [Vector.getElem_set]
    split
    · exact hvalue
    · exact h.double r'

theorem setDouble (r : Gpr) {value : UInt64} (hvalue : SignExtended value) :
    (c.setDouble r value).Canonical :=
  h.setQuad r hvalue

theorem setWord (r : Gpr) (value : UInt32) : (c.setWord r value).Canonical :=
  h.setDouble r (signExtended_signExtend32 value)

theorem setResult (half : ResultHalf) (pipe : Pipeline) {value : UInt64}
    (hvalue : SignExtended value) : (c.setResult half pipe value).Canonical := by
  have hpart : ∀ (p : Pipeline) (q : Quad), SignExtended (p.part q) →
      SignExtended (p.part (pipe.replace q value)) := by
    intro p q hq
    rw [Pipeline.part_replace]
    split
    · exact hvalue
    · exact hq
  cases half with
  | hi => exact ⟨h.double, fun p => hpart p _ (h.hi p), h.lo⟩
  | lo => exact ⟨h.double, h.hi, fun p => hpart p _ (h.lo p)⟩

theorem setResultWords (pipe : Pipeline) (hi lo : UInt32) :
    (c.setResultWords pipe hi lo).Canonical :=
  (h.setResult .hi pipe (signExtended_signExtend32 hi)).setResult .lo pipe
    (signExtended_signExtend32 lo)

theorem result (half : ResultHalf) (pipe : Pipeline) :
    SignExtended (pipe.part (c.result half)) := by
  cases half with
  | hi => exact h.hi pipe
  | lo => exact h.lo pipe

end Core.Canonical

/-! ## Wide instructions -/

/-- Whether an operation computes a doubleword that need not be a sign-extended word. -/
def AluOp.isWide : AluOp → Bool
  | .dadd | .daddu | .dsub | .dsubu => true
  | _ => false

@[inherit_doc AluOp.isWide]
def ImmOp.isWide : ImmOp → Bool
  | .daddi | .daddiu => true
  | _ => false

@[inherit_doc AluOp.isWide]
def ShiftOp.isWide : ShiftOp → Bool
  | .sll | .srl | .sra => false
  | _ => true

@[inherit_doc AluOp.isWide]
def VarShiftOp.isWide : VarShiftOp → Bool
  | .sllv | .srlv | .srav => false
  | _ => true

/-- Whether a load gives a doubleword that need not be a sign-extended word. -/
def LoadOp.isWide : LoadOp → Bool
  | .lwu | .ld | .lq => true
  | _ => false

@[inherit_doc LoadOp.isWide]
def PartLoadOp.isWide : PartLoadOp → Bool
  | .ldl | .ldr => true
  | _ => false

/-- Whether an instruction is one that the 32-bit architecture does not have and that writes
registers. -/
def Instruction.isWide : Instruction → Bool
  | .shift op _ _ _ => op.isWide
  | .shiftBy op _ _ _ => op.isWide
  | .alu op _ _ _ => op.isWide
  | .aluImm op _ _ _ => op.isWide
  | .load op _ _ _ => op.isWide
  | .loadPart op _ _ _ => op.isWide
  | .moveFromShiftAmount _ | .leadingSigns _ _ | .parallel _ _ _ _ => true
  | _ => false

/-! ## What operations compute -/

theorem AluOp.signExtended_eval {op : AluOp} (hop : op.isWide = false) {a b : UInt64}
    (ha : SignExtended a) (hb : SignExtended b) : SignExtended (op.eval a b) := by
  cases op with
  | add => exact signExtended_signExtend32 _
  | addu => exact signExtended_signExtend32 _
  | sub => exact signExtended_signExtend32 _
  | subu => exact signExtended_signExtend32 _
  | and => exact ha.and hb
  | or => exact ha.or hb
  | xor => exact ha.xor hb
  | nor => exact (ha.or hb).not
  | slt => exact signExtended_truthWord _
  | sltu => exact signExtended_truthWord _
  | dadd => cases hop
  | daddu => cases hop
  | dsub => cases hop
  | dsubu => cases hop

theorem ImmOp.signExtended_eval {op : ImmOp} (hop : op.isWide = false) {a : UInt64}
    (ha : SignExtended a) (imm : UInt16) : SignExtended (op.eval a imm) := by
  cases op with
  | addi => exact signExtended_signExtend32 _
  | addiu => exact signExtended_signExtend32 _
  | slti => exact signExtended_truthWord _
  | sltiu => exact signExtended_truthWord _
  | andi => exact ha.and (signExtended_half imm)
  | ori => exact ha.or (signExtended_half imm)
  | xori => exact ha.xor (signExtended_half imm)
  | daddi => cases hop
  | daddiu => cases hop

theorem signExtended_of_map {x : Except Fault UInt32} {v : UInt64}
    (h : signExtend32 <$> x = .ok v) : SignExtended v := by
  obtain ⟨w, -, rfl⟩ := exists_of_map_eq_ok h
  exact signExtended_signExtend32 w

theorem ShiftOp.signExtended_of_eval {op : ShiftOp} (hop : op.isWide = false) {a v : UInt64}
    {amount : UInt8} (h : op.eval a amount = .ok v) : SignExtended v := by
  cases op <;> first | exact signExtended_of_map h | cases hop

theorem VarShiftOp.signExtended_of_eval {op : VarShiftOp} (hop : op.isWide = false) {a v : UInt64}
    {amount : UInt32} (h : op.eval a amount = .ok v) : SignExtended v := by
  cases op <;> first | exact signExtended_of_map h | cases hop

theorem LoadOp.signExtended_extend {op : LoadOp} (hop : op.isWide = false) (value : op.width.Value)
    (old : Quad) : SignExtended (op.extend value old).lo := by
  cases op with
  | lb => exact signExtended_signExtend8 value
  | lbu => exact signExtended_byte value
  | lh => exact signExtended_signExtend16 value
  | lhu => exact signExtended_half value
  | lw => exact signExtended_signExtend32 value
  | lwu => cases hop
  | ld => cases hop
  | lq => cases hop

/-- A word that is moved down has no sign bit. -/
theorem testBit32_shiftRight_top (x : UInt32) {amount : UInt32} (h : amount.toNat % 32 ≠ 0) :
    testBit32 (x >>> amount) 31 = false := by
  rw [testBit32_eq, UInt32.toNat_shiftRight, Nat.testBit_shiftRight]
  refine Nat.testBit_lt_two_pow (Nat.lt_of_lt_of_le x.toNat_lt ?_)
  refine Nat.pow_le_pow_right (by decide) ?_
  show 32 ≤ amount.toNat % 32 + 31
  omega

/-- The part of a word that is loaded below an address keeps the sign of the register. -/
theorem testBit32_placeBelow32 (old memory : UInt32) {amount : UInt32}
    (h : amount.toNat % 32 ≠ 0) :
    testBit32 (placeBelow32 old memory amount) 31 = testBit32 old 31 := by
  simp only [placeBelow32, testBit32_or, testBit32_and, testBit32_not,
    testBit32_shiftRight_top _ h, Bool.not_false, Bool.and_true, Bool.or_false]

/-- The shift of a partial load inside a word is not a multiple of the word. -/
theorem shift_mod_ne_zero {a : UInt32} (h : a &&& 3 ≠ 0) : (8 * (a &&& 3)).toNat % 32 ≠ 0 := by
  have hmask : (a &&& 3).toNat = a.toNat % 2 ^ 2 := toNat_and_mask a 3 2 rfl
  have hne : (a &&& 3).toNat ≠ 0 := fun h0 => h (UInt32.toNat_inj.1 h0)
  rw [UInt32.toNat_mul]
  show 8 * (a &&& 3).toNat % 2 ^ 32 % 32 ≠ 0
  omega

/-! ## What instructions keep -/

namespace Instruction

theorem canonical_of_branch {m : Machine} (hm : m.core.Canonical) (pc : UInt32)
    (taken likely : Bool) (target : UInt32) :
    (branch pc taken likely target).Ensures m fun _ m' => m'.core.Canonical := by
  simp only [branch, ensures_ite, ensures_bind, ensures_onCore, ensures_pure]
  exact ⟨fun _ => hm.congr rfl rfl rfl, fun _ => hm⟩

/-- Loading part of a word keeps the registers canonical. -/
theorem canonical_of_loadPart {op : PartLoadOp} (hop : op.isWide = false) (rt : Gpr) (a : UInt32)
    {m : Machine} (hm : m.core.Canonical) :
    (Exec.loadPart op rt a).Ensures m fun _ m' => m'.core.Canonical := by
  cases op with
  | lwl =>
    simp only [Exec.loadPart, ensures_bind, ensures_onCore]
    exact Machine.ensures_read fun _ _ _ => hm.setWord rt _
  | lwr =>
    simp only [Exec.loadPart, ensures_bind, ensures_onCore]
    refine Machine.ensures_read fun memory _ _ => ?_
    split
    · exact hm.setWord rt _
    · -- the register keeps its upper word, and the loaded bytes stay below the sign bit
      rename_i ha
      exact hm.setDouble rt ((hm.double rt).replace_low
        (testBit32_placeBelow32 _ memory (shift_mod_ne_zero ha)))
  | ldl => cases hop
  | ldr => cases hop

/-- **An instruction that is not wide keeps the registers canonical.** -/
theorem canonical_of_execute {i : Instruction} (hi : i.isWide = false) (pc : UInt32) {m : Machine}
    (hm : m.core.Canonical) : (i.execute pc).Ensures m fun _ m' => m'.core.Canonical := by
  have hdouble := hm.double
  cases i with
  | shift op rd rt amount =>
    simp only [execute, setChecked, ensures_bind, ensures_ofCore, ensures_ofChecked,
      ensures_onCore, ensures_pure]
    exact fun v hv => hm.setDouble rd (op.signExtended_of_eval hi hv)
  | shiftBy op rd rt rs =>
    simp only [execute, setChecked, ensures_bind, ensures_ofCore, ensures_ofChecked,
      ensures_onCore, ensures_pure]
    exact fun v hv => hm.setDouble rd (op.signExtended_of_eval hi hv)
  | alu op rd rs rt =>
    simp only [execute, ensures_bind, ensures_onCore, ensures_pure]
    exact hm.setDouble rd (op.signExtended_eval hi (hdouble rs) (hdouble rt))
  | aluImm op rt rs imm =>
    simp only [execute, ensures_bind, ensures_onCore, ensures_pure]
    exact hm.setDouble rt (op.signExtended_eval hi (hdouble rs) imm)
  | loadUpper rt imm =>
    simp only [execute, ensures_bind, ensures_onCore, ensures_pure]
    exact hm.setWord rt _
  | moveIf isZero rd rs rt =>
    simp only [execute, ensures_bind, ensures_onCore, ensures_pure]
    split
    · exact hm.setDouble rd (hdouble rs)
    · exact hm
  | moveFromResult half pipe rd =>
    simp only [execute, ensures_bind, ensures_onCore, ensures_pure]
    exact hm.setDouble rd (hm.result half pipe)
  | moveToResult half pipe rs =>
    simp only [execute, ensures_bind, ensures_onCore, ensures_pure]
    exact hm.setResult half pipe (hdouble rs)
  | multiply signed pipe rd rs rt =>
    simp only [execute, setProduct, ensures_bind, ensures_ofCore, ensures_ofChecked,
      ensures_onCore, ensures_pure]
    exact fun _ _ => (hm.setResultWords pipe _ _).setWord rd _
  | multiplyAdd signed pipe rd rs rt =>
    simp only [execute, setProduct, ensures_bind, ensures_ofCore, ensures_ofChecked,
      ensures_onCore, ensures_pure]
    exact fun _ _ => (hm.setResultWords pipe _ _).setWord rd _
  | divide signed pipe rs rt =>
    simp only [execute, ensures_bind, ensures_ofCore, ensures_ofChecked, ensures_onCore,
      ensures_pure]
    exact fun _ _ => hm.setResultWords pipe _ _
  | moveFromShiftAmount rd => cases hi
  | leadingSigns rd rs => cases hi
  | parallel op rd rs rt => cases hi
  | jumpRegister rs =>
    simp only [execute, ensures_bind, ensures_ofCore]
    exact canonical_of_branch hm _ _ _ _
  | jumpLinkRegister rd rs =>
    simp only [execute, ensures_bind, ensures_ofCore, ensures_onCore]
    refine canonical_of_branch ?_ _ _ _ _
    exact hm.setWord rd _
  | jump link target =>
    cases link with
    | true =>
      simp only [execute, if_true, ensures_bind, ensures_onCore]
      refine canonical_of_branch ?_ _ _ _ _
      exact hm.setWord .ra _
    | false =>
      simp only [execute, Bool.false_eq_true, if_false]
      exact canonical_of_branch hm _ _ _ _
  | branchPair test likely rs rt offset =>
    simp only [execute, ensures_bind, ensures_ofCore]
    exact canonical_of_branch hm _ _ _ _
  | branchZero test likely rs offset =>
    simp only [execute, ensures_bind, ensures_ofCore]
    exact canonical_of_branch hm _ _ _ _
  | branchLink test likely rs offset =>
    simp only [execute, ensures_bind, ensures_ofCore, ensures_onCore]
    refine canonical_of_branch ?_ _ _ _ _
    exact hm.setWord .ra _
  | branchFloat condition likely offset =>
    simp only [execute, ensures_bind, ensures_ofCore]
    exact canonical_of_branch hm _ _ _ _
  | moveFromControl rt cd =>
    simp only [execute, ensures_bind, ensures_onCore, ensures_pure]
    exact hm.setWord rt _
  | moveFromFloat rt fs =>
    simp only [execute, ensures_bind, ensures_onCore, ensures_pure]
    exact hm.setWord rt _
  | moveFromFloatControl rt fs =>
    simp only [execute, ensures_bind, ensures_onCore, ensures_pure]
    exact hm.setWord rt _
  | load op rt offset base =>
    simp only [execute, ensures_bind, ensures_onCore, ensures_pure]
    exact ensures_loadAligned fun value _ _ => hm.setQuad rt (op.signExtended_extend hi value _)
  | loadFloat ft offset base =>
    simp only [execute, ensures_bind, ensures_onCore, ensures_pure]
    exact ensures_loadAligned fun _ _ _ => hm.congr rfl rfl rfl
  | loadPart op rt offset base =>
    simp only [execute, effectiveAddress, ensures_bind, ensures_ofCore, ensures_pure]
    exact canonical_of_loadPart hi rt _ hm
  | store op rt offset base =>
    simp only [execute, ensures_bind, ensures_ofCore, ensures_pure]
    exact ensures_storeAligned fun _ _ _ => hm.congr rfl rfl rfl
  | storeFloat ft offset base =>
    simp only [execute, ensures_bind, ensures_ofCore, ensures_pure]
    exact ensures_storeAligned fun _ _ _ => hm.congr rfl rfl rfl
  | storePart op rt offset base =>
    simp only [execute, effectiveAddress, ensures_bind, ensures_ofCore, ensures_pure]
    exact ensures_storePart fun _ _ _ => hm.congr rfl rfl rfl
  | trap test rs rt =>
    simp only [execute, trapIf, ensures_bind, ensures_ofCore, ensures_ite, ensures_raise,
      ensures_pure, implies_true, true_and]
    exact fun _ => hm
  | trapImm test rs imm =>
    simp only [execute, trapIf, ensures_bind, ensures_ofCore, ensures_ite, ensures_raise,
      ensures_pure, implies_true, true_and]
    exact fun _ => hm
  | syscall => exact ensures_of_raised rfl
  | breakpoint => exact ensures_of_raised rfl
  -- the remaining instructions write no general register and no multiply result
  | _ =>
    simp only [execute, ensures_bind, ensures_ofCore, ensures_note, ensures_onCore, ensures_pure]
    exact hm.congr rfl rfl rfl

end Instruction

/-! ## Comparisons -/

/-- Whether a trap's comparison holds of two words. -/
def TrapTest.holdsOfWords (test : TrapTest) (a b : UInt32) : Bool :=
  match test with
  | .ge => b.toInt32 ≤ a.toInt32
  | .geu => b ≤ a
  | .lt => a.toInt32 < b.toInt32
  | .ltu => a < b
  | .eq => a = b
  | .ne => a != b

/-- Whether a branch's comparison holds of two words. -/
def PairTest.holdsOfWords (test : PairTest) (a b : UInt32) : Bool :=
  match test with
  | .eq => a = b
  | .ne => a != b

/-- Whether a branch's comparison with zero holds of a word. -/
def ZeroTest.holdsOfWord (test : ZeroTest) (a : UInt32) : Bool :=
  match test with
  | .lez => a.toInt32 ≤ 0
  | .gtz => 0 < a.toInt32
  | .ltz => a.toInt32 < 0
  | .gez => 0 ≤ a.toInt32

section Comparisons

variable {a b : UInt64} (ha : SignExtended a)
include ha

theorem TrapTest.holds_of_signExtended (hb : SignExtended b) (test : TrapTest) :
    test.holds a b = test.holdsOfWords a.toUInt32 b.toUInt32 := by
  cases test with
  | ge => exact decide_eq_decide.2 (hb.le_signed_iff ha)
  | geu => exact decide_eq_decide.2 (hb.le_iff ha)
  | lt => exact decide_eq_decide.2 (ha.lt_signed_iff hb)
  | ltu => exact decide_eq_decide.2 (ha.lt_iff hb)
  | eq => exact decide_eq_decide.2 (ha.eq_iff hb)
  | ne => exact congrArg Bool.not (decide_eq_decide.2 (ha.eq_iff hb))

theorem PairTest.holds_of_signExtended (hb : SignExtended b) (test : PairTest) :
    test.holds a b = test.holdsOfWords a.toUInt32 b.toUInt32 := by
  cases test with
  | eq => exact decide_eq_decide.2 (ha.eq_iff hb)
  | ne => exact congrArg Bool.not (decide_eq_decide.2 (ha.eq_iff hb))

theorem ZeroTest.holds_of_signExtended (test : ZeroTest) :
    test.holds a = test.holdsOfWord a.toUInt32 := by
  cases test with
  | lez => exact decide_eq_decide.2 (ha.le_signed_iff signExtended_zero)
  | gtz => exact decide_eq_decide.2 (signExtended_zero.lt_signed_iff ha)
  | ltz => exact decide_eq_decide.2 (ha.lt_signed_iff signExtended_zero)
  | gez => exact decide_eq_decide.2 (signExtended_zero.le_signed_iff ha)

end Comparisons

namespace Instruction

/-- The action of an instruction that compares words where it would compare doublewords: the low
words of its registers, and its immediate, sign-extended to a word. -/
def executeOnWords (i : Instruction) (pc : UInt32) : Exec UInt32 :=
  match i with
  | .alu .slt rd rs rt => do
    onCore fun c => c.setDouble rd (truthWord ((c.word rs).toInt32 < (c.word rt).toInt32))
    return pc + 4
  | .alu .sltu rd rs rt => do
    onCore fun c => c.setDouble rd (truthWord (c.word rs < c.word rt))
    return pc + 4
  | .aluImm .slti rt rs imm => do
    onCore fun c =>
      c.setDouble rt (truthWord ((c.word rs).toInt32 < (signExtend16To32 imm).toInt32))
    return pc + 4
  | .aluImm .sltiu rt rs imm => do
    onCore fun c => c.setDouble rt (truthWord (c.word rs < signExtend16To32 imm))
    return pc + 4
  | .moveIf isZero rd rs rt => do
    onCore fun c => if (c.word rt == 0) == isZero then c.setDouble rd (c.double rs) else c
    return pc + 4
  | .trap test rs rt => do
    trapIf (test.holdsOfWords (← ofCore (·.word rs)) (← ofCore (·.word rt)))
    return pc + 4
  | .trapImm test rs imm => do
    trapIf (test.holdsOfWords (← ofCore (·.word rs)) (signExtend16To32 imm))
    return pc + 4
  | .branchPair test likely rs rt offset => do
    let taken := test.holdsOfWords (← ofCore (·.word rs)) (← ofCore (·.word rt))
    branch pc taken likely (relativeTarget pc offset)
  | .branchZero test likely rs offset => do
    let taken := test.holdsOfWord (← ofCore (·.word rs))
    branch pc taken likely (relativeTarget pc offset)
  | .branchLink test likely rs offset => do
    let taken := test.zeroTest.holdsOfWord (← ofCore (·.word rs))
    onCore (·.setWord .ra (pc + 8))
    branch pc taken likely (relativeTarget pc offset)
  | i => i.execute pc

/-- The word that an immediate stands for is the low word of the doubleword that it stands for. -/
theorem toUInt32_signExtend16 (imm : UInt16) :
    (signExtend16 imm).toUInt32 = signExtend16To32 imm := by
  rw [signExtend16_eq, toUInt32_signExtend32]

/-- With canonical registers, an instruction does what it does when it compares words. -/
theorem run_execute_of_canonical (i : Instruction) (pc : UInt32) {m : Machine}
    (hm : m.core.Canonical) : (i.execute pc).run m = (i.executeOnWords pc).run m := by
  have hdouble := hm.double
  cases i with
  | alu op rd rs rt =>
    cases op with
    | slt =>
      have h : AluOp.slt.eval (m.core.double rs) (m.core.double rt) =
          truthWord ((m.core.word rs).toInt32 < (m.core.word rt).toInt32) :=
        congrArg truthWord (TrapTest.lt.holds_of_signExtended (hdouble rs) (hdouble rt))
      simp only [execute, executeOnWords, run_onCore_bind, h]
    | sltu =>
      have h : AluOp.sltu.eval (m.core.double rs) (m.core.double rt) =
          truthWord (m.core.word rs < m.core.word rt) :=
        congrArg truthWord (TrapTest.ltu.holds_of_signExtended (hdouble rs) (hdouble rt))
      simp only [execute, executeOnWords, run_onCore_bind, h]
    | _ => rfl
  | aluImm op rt rs imm =>
    have himm := signExtended_signExtend16 imm
    cases op with
    | slti =>
      have h : ImmOp.slti.eval (m.core.double rs) imm =
          truthWord ((m.core.word rs).toInt32 < (signExtend16To32 imm).toInt32) := by
        rw [← toUInt32_signExtend16]
        exact congrArg truthWord (TrapTest.lt.holds_of_signExtended (hdouble rs) himm)
      simp only [execute, executeOnWords, run_onCore_bind, h]
    | sltiu =>
      have h : ImmOp.sltiu.eval (m.core.double rs) imm =
          truthWord (m.core.word rs < signExtend16To32 imm) := by
        rw [← toUInt32_signExtend16]
        exact congrArg truthWord (TrapTest.ltu.holds_of_signExtended (hdouble rs) himm)
      simp only [execute, executeOnWords, run_onCore_bind, h]
    | _ => rfl
  | moveIf isZero rd rs rt =>
    have h : (m.core.double rt == 0) = ((m.core.double rt).toUInt32 == 0) :=
      decide_eq_decide.2 ((hdouble rt).eq_iff signExtended_zero)
    simp only [execute, executeOnWords, run_onCore_bind, Core.word, h]
    rfl
  | trap test rs rt =>
    have h := test.holds_of_signExtended (hdouble rs) (hdouble rt)
    simp only [execute, executeOnWords, run_ofCore_bind, Core.word, h]
  | trapImm test rs imm =>
    have h := test.holds_of_signExtended (hdouble rs) (signExtended_signExtend16 imm)
    rw [toUInt32_signExtend16] at h
    simp only [execute, executeOnWords, run_ofCore_bind, Core.word, h]
  | branchPair test likely rs rt offset =>
    have h := test.holds_of_signExtended (hdouble rs) (hdouble rt)
    simp only [execute, executeOnWords, run_ofCore_bind, Core.word, h]
  | branchZero test likely rs offset =>
    have h := test.holds_of_signExtended (hdouble rs)
    simp only [execute, executeOnWords, run_ofCore_bind, Core.word, h]
  | branchLink test likely rs offset =>
    have h := test.zeroTest.holds_of_signExtended (hdouble rs)
    simp only [execute, executeOnWords, run_ofCore_bind, Core.word, h]
  | _ => rfl

end Instruction

/-! ## Sequences of instructions -/

namespace Machine

/-- Interpret decoded words one after another. An instruction that raises an exception leaves its
machine to the next one. -/
def interpretAll : List UInt32 → Machine → Except Fault Machine
  | [], m => .ok m
  | word :: words, m =>
    match (Instruction.decode word).interpret.run m with
    | .done _ m' => interpretAll words m'
    | .raised _ m' => interpretAll words m'
    | .faulted fault => .error fault

theorem interpretAll_append (words words' : List UInt32) (m : Machine) :
    m.interpretAll (words ++ words') = m.interpretAll words >>= interpretAll words' := by
  induction words generalizing m with
  | nil => rfl
  | cons word words ih =>
    simp only [List.cons_append, interpretAll]
    split
    · exact ih _
    · exact ih _
    · rfl

/-- A word is interpreted to the end, or raises an exception and changes nothing. -/
theorem interpretAll_word (word : UInt32) (m : Machine) : ∃ m', m.interpretAll [word] = .ok m' ∧
    ((Instruction.decode word).interpret.run m = .done () m' ∨
      ∃ e, (Instruction.decode word).interpret.run m = .raised e m ∧ m' = m) := by
  rcases Instruction.interpret_cases (Instruction.decode word) m
    (Instruction.decode_shiftsFit word) with ⟨e, hraised, -⟩ | ⟨next, m', hdone, -⟩
  · exact ⟨m, by rw [interpretAll, hraised]; rfl, .inr ⟨e, hraised, rfl⟩⟩
  · exact ⟨_, by rw [interpretAll, hdone]; rfl, .inl hdone⟩

/-- Interpreting words never faults. -/
theorem exists_interpretAll_eq_ok (words : List UInt32) (m : Machine) :
    ∃ m', m.interpretAll words = .ok m' := by
  induction words generalizing m with
  | nil => exact ⟨m, rfl⟩
  | cons word words ih =>
    obtain ⟨m₁, hword, -⟩ := interpretAll_word word m
    obtain ⟨m', hrest⟩ := ih m₁
    refine ⟨m', ?_⟩
    rw [← List.singleton_append, interpretAll_append, hword]
    exact hrest

/-- Interpreting a word whose instruction is not wide keeps the registers canonical. -/
theorem canonical_of_interpret {word : UInt32} {m : Machine}
    (hword : (Instruction.decode word).isWide = false) (hm : m.core.Canonical) :
    (∃ m', (Instruction.decode word).interpret.run m = .done () m' ∧ m'.core.Canonical) ∨
      ∃ e, (Instruction.decode word).interpret.run m = .raised e m := by
  rcases Instruction.interpret_cases (Instruction.decode word) m
    (Instruction.decode_shiftsFit word) with ⟨e, he, -⟩ | ⟨next, m', hdone, -⟩
  · exact .inr ⟨e, he⟩
  · have hkeeps : (Instruction.decode word).interpret.Ensures m fun _ m' => m'.core.Canonical := by
      simp only [Instruction.interpret, ensures_bind, ensures_ofCore, ensures_onCore]
      exact (Instruction.canonical_of_execute hword m.core.pc hm).mono fun _ _ h =>
        h.congr rfl rfl rfl
    exact .inl ⟨_, hdone, hkeeps _ _ hdone⟩

/-- **Programs of word instructions run on words.** Interpreted from canonical registers on any
machine, every sequence of words whose instructions are not wide leaves the registers canonical, and
then every instruction, anywhere, does what it does when it compares words: the comparisons of
doublewords that branches, traps, set-on-less-than and conditional moves make are decided by the low
words. -/
theorem interpretAll_canonical (words : List UInt32) (m : Machine)
    (hwords : ∀ word ∈ words, (Instruction.decode word).isWide = false) (hm : m.core.Canonical) :
    ∃ m', m.interpretAll words = .ok m' ∧ m'.core.Canonical ∧
      ∀ (i : Instruction) (pc : UInt32), (i.execute pc).run m' = (i.executeOnWords pc).run m' := by
  induction words generalizing m with
  | nil => exact ⟨m, rfl, hm, fun i pc => i.run_execute_of_canonical pc hm⟩
  | cons word words ih =>
    have hrest : ∀ w ∈ words, (Instruction.decode w).isWide = false := fun w hw =>
      hwords w (List.mem_cons_of_mem word hw)
    rcases canonical_of_interpret (hwords word List.mem_cons_self) hm with
      ⟨m₁, hdone, hm₁⟩ | ⟨e, hraised⟩
    · rw [interpretAll, hdone]
      exact ih m₁ hrest hm₁
    · rw [interpretAll, hraised]
      exact ih m hrest hm

/-- A word program on a reset processor: minus one, and whether zero is below it. -/
theorem interpretAll_canonical_initial :
    (∀ word ∈ [0x2408FFFF, 0x0008482B], (Instruction.decode word).isWide = false) ∧
      Core.initial.Canonical ∧
      ∃ m', interpretAll [0x2408FFFF, 0x0008482B] ⟨Core.initial, Bus.initial, .silent⟩ = .ok m' ∧
        m'.core.Canonical ∧
        ∀ (i : Instruction) (pc : UInt32),
          (i.execute pc).run m' = (i.executeOnWords pc).run m' := by
  have hwords : ∀ word ∈ [0x2408FFFF, 0x0008482B], (Instruction.decode word).isWide = false :=
    List.forall_mem_cons.2 ⟨rfl, List.forall_mem_singleton.2 rfl⟩
  exact ⟨hwords, Core.canonical_initial, interpretAll_canonical [0x2408FFFF, 0x0008482B]
    ⟨Core.initial, Bus.initial, .silent⟩ hwords Core.canonical_initial⟩

end Machine

end R5900
