import R5900.Proofs.Execute.Specification
import R5900.Proofs.Postcondition
import R5900.Proofs.Register

/-!
# What one instruction may write in the core

The write set of an instruction is told from the instruction alone: its destination register
(`Instruction.destination?`), the part of the multiply result that it replaces
(`Instruction.writesResult`), and whether it touches one of the other units.

* `Core.WrittenBy`: two cores differ in the write set of an instruction only. This is a preorder, so
  the write set of an instruction follows from those of the writes that it is made of.
* `Instruction.writes_of_execute`: an instruction that is done has written its write set only. What
  single parts of the core keep is read off this: the control registers, and the zero register, are
  left by all but those instructions that have them in their write sets.
-/

namespace R5900

open Exec

/-! ## Write sets -/

namespace Instruction

/-- The general register that the instruction writes: its destination operand, or the link register
of the jumps and branches that have none and link. -/
def destination? : Instruction → Option Gpr
  | .shift _ rd _ _ | .shiftBy _ rd _ _ | .alu _ rd _ _ | .moveIf _ rd _ _ => some rd
  | .aluImm _ rt _ _ | .loadUpper rt _ => some rt
  | .moveFromResult _ _ rd | .moveFromShiftAmount rd => some rd
  | .multiply _ _ rd _ _ | .multiplyAdd _ _ rd _ _ => some rd
  | .leadingSigns rd _ | .parallel _ rd _ _ => some rd
  | .jumpLinkRegister rd _ => some rd
  | .jump true _ | .branchLink _ _ _ _ => some .ra
  | .moveFromControl rt _ | .moveFromFloat rt _ | .moveFromFloatControl rt _ => some rt
  | .load _ rt _ _ | .loadPart _ rt _ _ => some rt
  | _ => none

/-- Whether the instruction replaces all bits of its destination, and not just the low ones. -/
def writesQuad : Instruction → Bool
  | .load .lq _ _ _ | .parallel _ _ _ _ => true
  | _ => false

/-- Whether the instruction replaces the doubleword of a pipeline in a half of the multiply
result. -/
def writesResult (half : ResultHalf) (pipe : Pipeline) : Instruction → Bool
  | .multiply _ p _ _ _ | .multiplyAdd _ p _ _ _ | .divide _ p _ _ => p = pipe
  | .moveToResult h p _ => h = half ∧ p = pipe
  | _ => false

/-- Whether the instruction writes the shift amount. -/
def writesShiftAmount : Instruction → Bool
  | .moveToShiftAmount _ => true
  | _ => false

/-- Whether the instruction writes registers of the float unit. -/
def writesFloat : Instruction → Bool
  | .loadFloat _ _ _ | .moveToFloat _ _ | .moveToFloatControl _ _ => true
  | .floatOp _ _ _ _ | .floatMap _ _ _ | .floatCompare _ _ _ => true
  | _ => false

/-- Whether the instruction writes control registers or changes the latched lines. -/
def writesControl : Instruction → Bool
  | .moveToControl _ _ | .exceptionReturn | .setInterruptEnable _ => true
  | _ => false

/-- Whether the instruction is a jump or a branch. -/
def isBranch : Instruction → Bool
  | .jumpRegister _ | .jumpLinkRegister _ _ | .jump _ _ => true
  | .branchPair _ _ _ _ _ | .branchZero _ _ _ _ | .branchLink _ _ _ _ | .branchFloat _ _ _ => true
  | _ => false

/-- Whether the instruction is a store. -/
def isStore : Instruction → Bool
  | .store _ _ _ _ | .storePart _ _ _ _ | .storeFloat _ _ _ => true
  | _ => false

end Instruction

/-! ## Cores -/

namespace Core

/-- The core `c'` differs from the core `c` only in the write set of the instruction and in the
program counter. Which bytes of the scratchpad a store changes is left open. -/
structure WrittenBy (i : Instruction) (c c' : Core) : Prop where
  quad : ∀ r, (i.destination? = some r → r = .zero) → c'.quad r = c.quad r
  high : i.writesQuad = false → ∀ r, (c'.quad r).hi = (c.quad r).hi
  result : ∀ half pipe, i.writesResult half pipe = false →
    pipe.part (c'.result half) = pipe.part (c.result half)
  shiftAmount : i.writesShiftAmount = false → c'.shiftAmount = c.shiftAmount
  float : i.writesFloat = false → c'.float = c.float
  control : i.writesControl = false → c'.control = c.control
  sequencing : i.isBranch = false → c'.sequencing = c.sequencing
  scratchpad : i.isStore = false → c'.scratchpad = c.scratchpad
  mode : c'.mode = c.mode

namespace WrittenBy

variable {i : Instruction} {c c' c'' : Core} {r : Gpr} {half : ResultHalf} {pipe : Pipeline}

theorem refl (i : Instruction) (c : Core) : c.WrittenBy i c where
  quad _ _ := rfl
  high _ _ := rfl
  result _ _ _ := rfl
  shiftAmount _ := rfl
  float _ := rfl
  control _ := rfl
  sequencing _ := rfl
  scratchpad _ := rfl
  mode := rfl

theorem trans (h : c.WrittenBy i c') (h' : c'.WrittenBy i c'') : c.WrittenBy i c'' where
  quad r hr := (h'.quad r hr).trans (h.quad r hr)
  high hi r := (h'.high hi r).trans (h.high hi r)
  result half pipe hi := (h'.result half pipe hi).trans (h.result half pipe hi)
  shiftAmount hi := (h'.shiftAmount hi).trans (h.shiftAmount hi)
  float hi := (h'.float hi).trans (h.float hi)
  control hi := (h'.control hi).trans (h.control hi)
  sequencing hi := (h'.sequencing hi).trans (h.sequencing hi)
  scratchpad hi := (h'.scratchpad hi).trans (h.scratchpad hi)
  mode := h'.mode.trans h.mode

/-! ### Writes to general registers -/

/-- A quadword that is written to the destination, with the high doubleword of the register if the
instruction does not replace it. -/
theorem setQuad (hr : i.destination? = some r) {value : Quad}
    (hhigh : i.writesQuad = false → value.hi = (c.quad r).hi) :
    c.WrittenBy i (c.setQuad r value) := by
  by_cases hzero : r = .zero
  · rw [hzero, setQuad_zero]
    exact refl i c
  · have hquad : ∀ r', r' ≠ r → (c.setQuad r value).quad r' = c.quad r' := fun r' hne =>
      c.quad_setQuad_of_ne hne.symm value
    refine ⟨fun r' hr' => hquad r' ?_, fun hi r' => ?_, ?_, ?_, ?_, ?_, ?_, ?_, ?_⟩
    · rintro rfl
      exact hzero (hr' hr)
    · by_cases hne : r' = r
      · rw [hne, c.quad_setQuad_self hzero]
        exact hhigh hi
      · rw [hquad r' hne]
    -- the other parts are those of a core with other registers
    all_goals rw [c.setQuad_eq hzero]
    · exact fun _ _ _ => rfl
    all_goals exact fun _ => rfl

theorem setDouble (hr : i.destination? = some r) (value : UInt64) :
    c.WrittenBy i (c.setDouble r value) :=
  setQuad hr fun _ => rfl

theorem setWord (hr : i.destination? = some r) (value : UInt32) :
    c.WrittenBy i (c.setWord r value) :=
  setDouble hr _

/-! ### Writes to the multiply result -/

theorem setResult (h : i.writesResult half pipe = true) (value : UInt64) :
    c.WrittenBy i (c.setResult half pipe value) := by
  have hpart : ∀ p, i.writesResult half p = false →
      ∀ q, p.part (pipe.replace q value) = p.part q := by
    intro p hp q
    refine Pipeline.part_replace_of_ne ?_ q value
    rintro rfl
    exact absurd h (Bool.eq_false_iff.1 hp)
  cases half with
  | hi =>
    refine ⟨fun _ _ => rfl, fun _ _ => rfl, fun half' p hp => ?_, fun _ => rfl, fun _ => rfl,
      fun _ => rfl, fun _ => rfl, fun _ => rfl, rfl⟩
    cases half' with
    | hi => exact hpart p hp c.hi
    | lo => rfl
  | lo =>
    refine ⟨fun _ _ => rfl, fun _ _ => rfl, fun half' p hp => ?_, fun _ => rfl, fun _ => rfl,
      fun _ => rfl, fun _ => rfl, fun _ => rfl, rfl⟩
    cases half' with
    | hi => rfl
    | lo => exact hpart p hp c.lo

theorem setResultWords (h : ∀ half, i.writesResult half pipe = true) (hi lo : UInt32) :
    c.WrittenBy i (c.setResultWords pipe hi lo) :=
  (setResult (h .hi) _).trans (setResult (h .lo) _)

/-! ### Writes to the other units -/

theorem setShiftAmount (h : i.writesShiftAmount = true) (value : UInt32) :
    c.WrittenBy i { c with shiftAmount := value } :=
  { refl i c with shiftAmount := fun hi => absurd h (Bool.eq_false_iff.1 hi) }

theorem setFloat (h : i.writesFloat = true) (value : FloatUnit) :
    c.WrittenBy i { c with float := value } :=
  { refl i c with float := fun hi => absurd h (Bool.eq_false_iff.1 hi) }

theorem setControl (h : i.writesControl = true) (value : SystemControl) :
    c.WrittenBy i { c with control := value } :=
  { refl i c with control := fun hi => absurd h (Bool.eq_false_iff.1 hi) }

theorem branchTo (h : i.isBranch = true) (target : UInt32) : c.WrittenBy i (c.branchTo target) :=
  { refl i c with sequencing := fun hi => absurd h (Bool.eq_false_iff.1 hi) }

theorem setScratchpad (h : i.isStore = true) (value : Memory scratchpadSize) :
    c.WrittenBy i { c with scratchpad := value } :=
  { refl i c with scratchpad := fun hi => absurd h (Bool.eq_false_iff.1 hi) }

theorem setPc (i : Instruction) (c : Core) (value : UInt32) :
    c.WrittenBy i { c with pc := value } :=
  { refl i c with }

end WrittenBy

end Core

/-! ## What instructions do to the core -/

namespace Instruction

section Parts

variable {i : Instruction} {m : Machine} {c : Core}

/-- A branch that is taken leaves a branch pending, and any other one leaves all as it is. -/
theorem writes_branch (h : c.WrittenBy i m.core) (hi : i.isBranch = true) (pc : UInt32)
    (taken likely : Bool) (target : UInt32) :
    (branch pc taken likely target).Ensures m fun _ m' => c.WrittenBy i m'.core := by
  simp only [branch, ensures_ite, ensures_bind, ensures_onCore, ensures_pure]
  exact ⟨fun _ => h.trans (.branchTo hi target), fun _ => h⟩

/-- A partial load writes its destination. -/
theorem writes_loadPart {rt : Gpr} (hrt : i.destination? = some rt) (op : PartLoadOp) (a : UInt32) :
    (Exec.loadPart op rt a).Ensures m fun _ m' => m.core.WrittenBy i m'.core := by
  cases op <;> simp only [Exec.loadPart, ensures_bind, ensures_onCore] <;>
    refine Machine.ensures_read fun memory _ _ => ?_
  case lwl => exact .setWord hrt _
  case lwr =>
    split
    · exact .setWord hrt _
    · exact .setDouble hrt _
  case ldl => exact .setDouble hrt _
  case ldr => exact .setDouble hrt _

/-- Of all loads, only that of a quadword replaces the high doubleword of its destination. -/
theorem LoadOp.hi_extend {op : LoadOp} {rt base : Gpr} {offset : UInt16}
    (h : (Instruction.load op rt offset base).writesQuad = false) (value : op.width.Value)
    (old : Quad) : (op.extend value old).hi = old.hi := by
  cases op with
  | lq => cases h
  | _ => rfl

end Parts

/-- **An instruction that is done has written its write set only.** -/
theorem writes_of_execute (i : Instruction) (pc : UInt32) (m : Machine) :
    (i.execute pc).Ensures m fun _ m' => m.core.WrittenBy i m'.core := by
  cases i with
  | unknown | hint | tlb =>
    simp only [execute, ensures_bind, ensures_note, ensures_pure]
    exact .refl _ _
  | syscall | breakpoint => exact ensures_of_raised rfl
  | trap | trapImm =>
    simp only [execute, trapIf, ensures_bind, ensures_ofCore, ensures_ite, ensures_raise,
      ensures_pure, implies_true, true_and]
    exact fun _ => .refl _ _
  | shift | shiftBy | leadingSigns =>
    simp only [execute, setChecked, ensures_bind, ensures_ofCore, ensures_ofChecked,
      ensures_onCore, ensures_pure]
    exact fun _ _ => .setDouble rfl _
  | alu | aluImm | moveFromResult | moveFromShiftAmount =>
    simp only [execute, ensures_bind, ensures_onCore, ensures_pure]
    exact .setDouble rfl _
  | loadUpper | moveFromControl | moveFromFloat | moveFromFloatControl =>
    simp only [execute, ensures_bind, ensures_onCore, ensures_pure]
    exact .setWord rfl _
  | moveIf isZero rd rs rt =>
    simp only [execute, ensures_bind, ensures_onCore, ensures_pure]
    split
    · exact .setDouble rfl _
    · exact .refl _ _
  | parallel op rd rs rt =>
    simp only [execute, ensures_bind, ensures_onCore, ensures_pure]
    exact .setQuad rfl fun h => absurd h (by simp [writesQuad])
  | moveToResult half pipe rs =>
    simp only [execute, ensures_bind, ensures_onCore, ensures_pure]
    refine .setResult ?_ _
    exact decide_eq_true ⟨rfl, rfl⟩
  | multiply signed pipe rd rs rt | multiplyAdd signed pipe rd rs rt =>
    simp only [execute, setProduct, ensures_bind, ensures_ofCore, ensures_ofChecked,
      ensures_onCore, ensures_pure]
    refine fun _ _ => (Core.WrittenBy.setResultWords (fun _ => ?_) _ _).trans (.setWord rfl _)
    exact decide_eq_true rfl
  | divide signed pipe rs rt =>
    simp only [execute, ensures_bind, ensures_ofCore, ensures_ofChecked, ensures_onCore,
      ensures_pure]
    refine fun _ _ => .setResultWords (fun _ => ?_) _ _
    exact decide_eq_true rfl
  | moveToShiftAmount rs =>
    simp only [execute, ensures_bind, ensures_onCore, ensures_pure]
    exact .setShiftAmount rfl _
  | jumpRegister rs =>
    simp only [execute, ensures_bind, ensures_ofCore]
    exact writes_branch (.refl _ _) rfl _ _ _ _
  | jumpLinkRegister rd rs =>
    simp only [execute, ensures_bind, ensures_ofCore, ensures_onCore]
    refine writes_branch ?_ rfl _ _ _ _
    exact .setWord rfl _
  | jump link target =>
    cases link with
    | true =>
      simp only [execute, if_true, ensures_bind, ensures_onCore]
      refine writes_branch ?_ rfl _ _ _ _
      exact .setWord (r := .ra) rfl _
    | false =>
      simp only [execute, Bool.false_eq_true, if_false]
      exact writes_branch (.refl _ _) rfl _ _ _ _
  | branchPair | branchZero | branchFloat =>
    simp only [execute, ensures_bind, ensures_ofCore]
    exact writes_branch (.refl _ _) rfl _ _ _ _
  | branchLink test likely rs offset =>
    simp only [execute, ensures_bind, ensures_ofCore, ensures_onCore]
    refine writes_branch ?_ rfl _ _ _ _
    exact .setWord (r := .ra) rfl _
  | moveToControl cd rt =>
    simp only [execute, ensures_bind, ensures_ofCore, ensures_note, ensures_onCore, ensures_pure]
    exact .setControl rfl _
  | exceptionReturn | setInterruptEnable =>
    simp only [execute, ensures_bind, ensures_ofCore, ensures_onCore, ensures_pure]
    exact .setControl rfl _
  | moveToFloat | moveToFloatControl | floatOp | floatMap | floatCompare =>
    simp only [execute, ensures_bind, ensures_onCore, ensures_pure]
    exact .setFloat rfl _
  | load op rt offset base =>
    simp only [execute, ensures_bind, ensures_onCore, ensures_pure]
    exact ensures_loadAligned fun value _ _ => .setQuad rfl fun h => LoadOp.hi_extend h value _
  | loadFloat ft offset base =>
    simp only [execute, ensures_bind, ensures_onCore, ensures_pure]
    exact ensures_loadAligned fun _ _ _ => .setFloat rfl _
  | loadPart op rt offset base =>
    simp only [execute, effectiveAddress, ensures_bind, ensures_ofCore, ensures_pure]
    exact writes_loadPart rfl op _
  | store | storeFloat =>
    simp only [execute, ensures_bind, ensures_ofCore, ensures_pure]
    exact ensures_storeAligned fun _ _ _ => .setScratchpad rfl _
  | storePart op rt offset base =>
    simp only [execute, effectiveAddress, ensures_bind, ensures_ofCore, ensures_pure]
    exact ensures_storePart fun _ _ _ => .setScratchpad rfl _

end Instruction

end R5900
