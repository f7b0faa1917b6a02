import R5900.Proofs.BitField
import R5900.Proofs.Execute.Instruction

/-!
# Branches go where a listing says

A listing shows the target of a branch from the instruction and its address alone
(`Instruction.target?`). Executing the instruction decides from the registers whether it branches,
writes a link and then computes where it goes. This module says that both agree.

* `Instruction.target?_decode`: what the shown targets are, as numbers and by the fields of the
  word. A relative branch goes to its delay slot and four times its signed offset, modulo `2 ^ 32`; a
  jump stays in the 256 MiB region of its delay slot.
* `Instruction.interpret_branches`: if executing an instruction leaves a branch pending, it goes to
  the target that is shown, or to the address that a register held before the instruction; if it
  leaves none pending, the next instruction comes next, unless a likely branch skips it.
-/

namespace R5900

/-! ## Target arithmetic -/

/-- The target of a relative branch is the delay slot and four times the signed offset, modulo
`2 ^ 32`. -/
theorem relativeTarget_eq (address : UInt32) (offset : UInt16) :
    relativeTarget address offset =
      UInt32.ofInt (address.toNat + 4 + 4 * offset.toInt16.toInt) := by
  have hshift : signExtend16To32 offset <<< (2 : UInt32) =
      UInt32.ofInt (4 * offset.toInt16.toInt) := by
    rw [UInt32.ofInt_mul, ofInt_toInt16]
    refine UInt32.toNat_inj.1 ?_
    rw [UInt32.toNat_shiftLeft, UInt32.toNat_mul, Nat.shiftLeft_eq, Nat.mul_comm]
    rfl
  rw [relativeTarget, hshift, UInt32.ofInt_add, UInt32.ofInt_add, ofInt_toNat]
  rfl

/-- The target of a jump has the upper four bits of the delay slot, and below them four times the
index of the jump. -/
theorem absoluteTarget_eq (address : UInt32) {index : UInt32} (hindex : index.toNat < 2 ^ 26) :
    (absoluteTarget address index).toNat =
      2 ^ 28 * ((address + 4).toNat / 2 ^ 28) + 4 * index.toNat := by
  have hregion : ((address + 4) &&& 0xF0000000).toNat =
      2 ^ 28 * ((address + 4).toNat / 2 ^ 28) := by
    have hmask := toNat_and_not_mask (address + 4) 0x0FFFFFFF 28 rfl
    have hsplit := Nat.div_add_mod (address + 4).toNat (2 ^ 28)
    refine hmask.trans ?_
    omega
  have hoffset : (index <<< (2 : UInt32)).toNat = 4 * index.toNat := by
    rw [UInt32.toNat_shiftLeft, Nat.shiftLeft_eq]
    show index.toNat * 4 % 2 ^ 32 = 4 * index.toNat
    omega
  rw [absoluteTarget, UInt32.toNat_or, hregion, hoffset,
    Nat.two_pow_add_eq_or_of_lt (show 4 * index.toNat < 2 ^ 28 by omega)]

namespace Encoding

theorem toNat_imm16 (w : UInt32) : (imm16 w).toNat = w.toNat % 2 ^ 16 := by
  rw [imm16, UInt32.toNat_toUInt16, toNat_field32 w (by decide) (by decide)]
  show w.toNat / 1 % 2 ^ 16 % 2 ^ 16 = w.toNat % 2 ^ 16
  rw [Nat.div_one, Nat.mod_mod]

theorem imm16_eq (w : UInt32) : imm16 w = w.toUInt16 :=
  UInt16.toNat_inj.1 ((toNat_imm16 w).trans w.toNat_toUInt16.symm)

theorem toNat_imm26 (w : UInt32) : (imm26 w).toNat = w.toNat % 2 ^ 26 := by
  rw [imm26, toNat_field32 w (by decide) (by decide)]
  exact congrArg (· % 2 ^ 26) w.toNat.div_one

end Encoding

namespace Transfer

variable {taken likely : Bool} {target target' : UInt32}

theorem eq_of_conditional_branch (h : conditional taken likely target = .branch target') :
    target = target' := by
  cases taken with
  | true => exact Transfer.branch.inj h
  | false => cases likely <;> cases h

theorem likely_of_conditional_skip (h : conditional taken likely target = .skip) :
    likely = true := by
  cases taken with
  | true => cases h
  | false =>
    cases likely with
    | true => rfl
    | false => cases h

theorem conditional_ne_resume : conditional taken likely target ≠ .resume target' := by
  cases taken with
  | true => exact nofun
  | false => cases likely <;> exact nofun

end Transfer

namespace Instruction

/-! ## Kinds of branches -/

/-- A jump to a place in the region of its delay slot. -/
def isJump : Instruction → Bool
  | .jump _ _ => true
  | _ => false

/-- A branch that skips its delay slot unless it is taken. -/
def isLikely : Instruction → Bool
  | .branchPair _ likely _ _ _ => likely
  | .branchZero _ likely _ _ => likely
  | .branchLink _ likely _ _ => likely
  | .branchFloat _ likely _ => likely
  | _ => false

/-- The instruction jumps to the address that a register holds. -/
inductive JumpsThrough : Instruction → Gpr → Prop
  | jump (rs : Gpr) : JumpsThrough (.jumpRegister rs) rs
  | link (rd rs : Gpr) : JumpsThrough (.jumpLinkRegister rd rs) rs

/-! ## Targets of decoded words -/

/-- The operand of a branch or jump that says where it goes is the field of the word `w`. -/
def TargetFrom (w : UInt32) : Instruction → Prop
  | .branchPair _ _ _ _ offset => offset = Encoding.imm16 w
  | .branchZero _ _ _ offset => offset = Encoding.imm16 w
  | .branchLink _ _ _ offset => offset = Encoding.imm16 w
  | .branchFloat _ _ offset => offset = Encoding.imm16 w
  | .jump _ target => target = Encoding.imm26 w
  | _ => True

/-- Decoding takes the operand from the low bits of the word. -/
theorem decode_targetFrom (w : UInt32) : (decode w).TargetFrom w := by
  obtain h | ⟨k, h⟩ := decode_cases w
  · rw [h]
    trivial
  · rw [h]
    cases k <;> first | rfl | trivial

/-- The target of a relative branch `w` at an address: its delay slot and four times its signed
offset, modulo `2 ^ 32`. -/
def RelativeTo (w address target : UInt32) : Prop :=
  target = UInt32.ofInt (address.toNat + 4 + 4 * w.toUInt16.toInt16.toInt)

/-- The target of a jump `w` at an address: it has the upper four bits of the delay slot, and the
others are four times the index in the word. -/
structure InRegionOf (w address target : UInt32) : Prop where
  region : target.toNat / 2 ^ 28 = (address + 4).toNat / 2 ^ 28
  place : target.toNat % 2 ^ 28 = 4 * (w.toNat % 2 ^ 26)

theorem inRegionOf_absoluteTarget (w address : UInt32) :
    InRegionOf w address (absoluteTarget address (Encoding.imm26 w)) := by
  have hindex : (Encoding.imm26 w).toNat < 2 ^ 26 :=
    Encoding.toNat_imm26 w ▸ Nat.mod_lt _ (by decide)
  have htarget := absoluteTarget_eq address hindex
  have hplace := Encoding.toNat_imm26 w
  exact ⟨by omega, by omega⟩

/-- **The shown target of a decoded word**, by the fields of the word. -/
theorem target?_decode {w address target : UInt32} (h : (decode w).target? address = some target) :
    if (decode w).isJump then InRegionOf w address target else RelativeTo w address target := by
  have hfrom := decode_targetFrom w
  have hrelative : RelativeTo w address (relativeTarget address (Encoding.imm16 w)) := by
    rw [RelativeTo, relativeTarget_eq, Encoding.imm16_eq]
  cases hi : decode w <;> rw [hi] at h hfrom <;> cases h <;> cases hfrom
  case jump => exact inRegionOf_absoluteTarget w address
  all_goals exact hrelative

/-! ## Targets of executed instructions -/

section Transfer

variable {i : Instruction} {pc target : UInt32} {c : Core}

/-- A branch that is taken goes to the target that is shown, or through a register. -/
theorem target?_of_branch (h : i.transfer pc c = .branch target) :
    i.target? pc = some target ∨
      ∃ rs, i.JumpsThrough rs ∧ i.target? pc = none ∧ target = c.word rs := by
  cases i with
  | jumpRegister rs =>
    cases h
    exact .inr ⟨rs, .jump rs, rfl, rfl⟩
  | jumpLinkRegister rd rs =>
    cases h
    exact .inr ⟨rs, .link rd rs, rfl, rfl⟩
  | jump link index =>
    cases h
    exact .inl rfl
  | branchPair test likely rs rt offset =>
    exact .inl (congrArg some (Transfer.eq_of_conditional_branch h))
  | branchZero test likely rs offset =>
    exact .inl (congrArg some (Transfer.eq_of_conditional_branch h))
  | branchLink test likely rs offset =>
    exact .inl (congrArg some (Transfer.eq_of_conditional_branch h))
  | branchFloat condition likely offset =>
    exact .inl (congrArg some (Transfer.eq_of_conditional_branch h))
  | _ => cases h

/-- Only a likely branch skips the next instruction. -/
theorem isLikely_of_skip (h : i.transfer pc c = .skip) :
    i.isLikely = true ∧ (i.target? pc).isSome = true := by
  cases i with
  | branchPair test likely rs rt offset => exact ⟨Transfer.likely_of_conditional_skip h, rfl⟩
  | branchZero test likely rs offset => exact ⟨Transfer.likely_of_conditional_skip h, rfl⟩
  | branchLink test likely rs offset => exact ⟨Transfer.likely_of_conditional_skip h, rfl⟩
  | branchFloat condition likely offset => exact ⟨Transfer.likely_of_conditional_skip h, rfl⟩
  | _ => cases h

/-- Only a return from an exception goes on at once at another address. -/
theorem eq_exceptionReturn_of_resume (h : i.transfer pc c = .resume target) :
    i = .exceptionReturn := by
  cases i with
  | exceptionReturn => rfl
  | branchPair test likely rs rt offset => exact absurd h Transfer.conditional_ne_resume
  | branchZero test likely rs offset => exact absurd h Transfer.conditional_ne_resume
  | branchLink test likely rs offset => exact absurd h Transfer.conditional_ne_resume
  | branchFloat condition likely offset => exact absurd h Transfer.conditional_ne_resume
  | _ => cases h

end Transfer

/-- From the core `c` to the core `c'`, the instruction has gone where a listing says. A branch that
is pending afterwards takes effect after one more instruction and goes to the target that is shown,
or if none is shown, to what a register held before. If none is pending, there is no trace of a
branch, and the next instruction comes next or is skipped by a likely branch; a return from an
exception goes on wherever it says. -/
structure GoesAsListed (i : Instruction) (c c' : Core) : Prop where
  pending : c'.isBranching = true →
    c'.delaySlot = 1 ∧ c'.pc = c.pc + 4 ∧
      (i.target? c.pc = some c'.branchTarget ∨
        ∃ rs, i.JumpsThrough rs ∧ i.target? c.pc = none ∧ c'.branchTarget = c.word rs)
  idle : c'.isBranching = false →
    c'.sequencing = c.sequencing ∧
      (c'.pc = c.pc + 4 ∨
        c'.pc = c.pc + 8 ∧ i.isLikely = true ∧ (i.target? c.pc).isSome = true ∨
        i = .exceptionReturn)

/-- An instruction that is done leaves a branch pending only if it is one. -/
theorem goesAsListed_of_effect {i : Instruction} {m m' : Machine} {next : UInt32}
    (hidle : m.core.isBranching = false) (h : i.Effect m.core.pc m next m') :
    i.GoesAsListed m.core { m'.core with pc := next } := by
  -- where the sequencing state is as before, no branch is pending
  have hquiet : m'.core.sequencing = m.core.sequencing → m'.core.isBranching ≠ true := by
    intro hsequencing hpending
    have hsame : m'.core.isBranching = m.core.isBranching :=
      congrArg Sequencing.isBranching hsequencing
    rw [hsame, hidle] at hpending
    cases hpending
  unfold Effect at h
  cases htransfer : i.transfer m.core.pc m.core with
  | next =>
    rw [htransfer] at h
    obtain ⟨rfl, hsequencing⟩ := h
    exact ⟨fun hpending => absurd hpending (hquiet hsequencing), fun _ =>
      ⟨hsequencing, .inl rfl⟩⟩
  | branch target =>
    rw [htransfer] at h
    obtain ⟨rfl, rfl⟩ := h
    exact ⟨fun _ => ⟨rfl, rfl, target?_of_branch htransfer⟩, nofun⟩
  | skip =>
    rw [htransfer] at h
    obtain ⟨rfl, rfl⟩ := h
    have hsequencing := Core.sequencing_link i m.core.pc m.core
    exact ⟨fun hpending => absurd hpending (hquiet hsequencing), fun _ =>
      ⟨hsequencing, .inr (.inl ⟨rfl, isLikely_of_skip htransfer⟩)⟩⟩
  | resume target =>
    rw [htransfer] at h
    obtain ⟨rfl, rfl⟩ := h
    exact ⟨fun hpending => absurd hpending (hquiet rfl), fun _ =>
      ⟨rfl, .inr (.inr (eq_exceptionReturn_of_resume htransfer))⟩⟩

/-- **Decoded words branch where a listing says.** Executed while no branch is pending, a word that
raises nothing leaves a branch pending only to the target that is shown for it, or if it is a jump
through a register, to what that register held before (also if the jump overwrites it with the
link); otherwise the next instruction comes next, unless a likely branch skips it or the word returns
from an exception. The shown target of a relative branch is four times the signed offset from the
delay slot, modulo `2 ^ 32`, and that of a jump is in the region of the delay slot. -/
theorem interpret_branches (w : UInt32) {m m' : Machine} (hidle : m.core.isBranching = false)
    (hrun : (decode w).interpret.run m = .done () m') :
    (decode w).GoesAsListed m.core m'.core ∧
      ∀ address target, (decode w).target? address = some target →
        if (decode w).isJump then InRegionOf w address target else RelativeTo w address target := by
  refine ⟨?_, fun address target => target?_decode⟩
  rcases interpret_cases (decode w) m (decode_shiftsFit w) with
    ⟨e, hraised, -⟩ | ⟨next, m₁, hdone, hcompletes⟩
  · rw [hraised] at hrun
    cases hrun
  · rw [hdone] at hrun
    cases hrun
    exact goesAsListed_of_effect hidle hcompletes.effect

/-- A taken branch at the start of the address space goes back across it, to `0xFFFFFFFC`. -/
theorem interpret_branches_wrapping :
    let m : Machine := ⟨{ Core.initial with pc := 0 }, Bus.initial, .silent⟩
    let m' : Machine := ⟨{ m.core.branchTo 0xFFFFFFFC with pc := 4 }, m.bus, m.journal⟩
    m.core.isBranching = false ∧ (decode 0x1000FFFE).interpret.run m = .done () m' ∧
      (decode 0x1000FFFE).GoesAsListed m.core m'.core ∧
      ∀ address target, (decode 0x1000FFFE).target? address = some target →
        if (decode 0x1000FFFE).isJump then InRegionOf 0x1000FFFE address target
        else RelativeTo 0x1000FFFE address target := by
  intro m m'
  have hdecode : decode 0x1000FFFE = .branchPair .eq false ⟨0⟩ ⟨0⟩ 0xFFFE := by decide
  -- of any machine at address 0, so that nothing computes with the initial one
  have hexecute (m : Machine) : ((decode 0x1000FFFE).execute 0).run m =
      .done 4 { m with core := m.core.branchTo 0xFFFFFFFC } := by
    rw [hdecode]
    simp only [execute, Exec.run_ofCore_bind, PairTest.holds, decide_true]
    rfl
  have hinterpret (m : Machine) (hpc : m.core.pc = 0) :
      (decode 0x1000FFFE).interpret.run m =
        .done () { m with core := { m.core.branchTo 0xFFFFFFFC with pc := 4 } } := by
    have hexecute := hexecute m
    rw [← hpc] at hexecute
    exact interpret_of_execute hexecute
  have hidle : m.core.isBranching = false := rfl
  have hrun : (decode 0x1000FFFE).interpret.run m = .done () m' := hinterpret m rfl
  exact ⟨hidle, hrun, interpret_branches 0x1000FFFE hidle hrun⟩

end Instruction

end R5900
