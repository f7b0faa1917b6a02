import R5900.Execute.Instruction

/-!
# What instructions are meant to do

The part of the meaning of an instruction that later proofs rest on, stated apart from how it is
executed.

* `Raises c i e`: in the core `c`, the instruction `i` raises the exception `e`. Only system calls,
  breakpoints, traps whose comparison holds, and loads and stores at addresses that are not
  multiples of their widths raise anything.
* `Instruction.transfer`: where control goes after the instruction, as a value of `Transfer`.
* `Core.sequencing`: the part of the core that says which instruction comes next. Writing registers
  leaves it alone, which is what the simp lemmas about it say.
-/

namespace R5900

/-! ## Exceptions -/

/-- What a trap compares, on the numbers that its operands spell. -/
def TrapTest.Compares (test : TrapTest) (a b : UInt64) : Prop :=
  match test with
  | .ge => b.toInt64.toInt ≤ a.toInt64.toInt
  | .geu => b.toNat ≤ a.toNat
  | .lt => a.toInt64.toInt < b.toInt64.toInt
  | .ltu => a.toNat < b.toNat
  | .eq => a = b
  | .ne => a ≠ b

theorem TrapTest.holds_iff (test : TrapTest) (a b : UInt64) :
    test.holds a b = true ↔ test.Compares a b := by
  cases test with
  | ge => exact decide_eq_true_iff.trans Int64.le_iff_toInt_le
  | geu => exact decide_eq_true_iff.trans UInt64.le_iff_toNat_le
  | lt => exact decide_eq_true_iff.trans Int64.lt_iff_toInt_lt
  | ltu => exact decide_eq_true_iff.trans UInt64.lt_iff_toNat_lt
  | eq => exact decide_eq_true_iff
  | ne => exact bne_iff_ne

/-- The address of a load or store: the low word of the base register plus the signed offset, modulo
`2 ^ 32`. -/
def Core.addressOf (c : Core) (base : Gpr) (offset : UInt16) : UInt32 :=
  UInt32.ofInt ((c.word base).toNat + offset.toInt16.toInt)

theorem ofInt_toInt16 (x : UInt16) : UInt32.ofInt x.toInt16.toInt = signExtend16To32 x := by
  apply UInt32.toBitVec_inj.1
  rw [toBitVec_signExtend16To32]
  apply BitVec.eq_of_toNat_eq
  show (BitVec.ofNat 32 (x.toBitVec.toInt % 2 ^ 32).toNat).toNat =
    (BitVec.ofInt 32 x.toBitVec.toInt).toNat
  rw [BitVec.toNat_ofInt, BitVec.toNat_ofNat]
  omega

theorem ofInt_toNat (x : UInt32) : UInt32.ofInt x.toNat = x := by
  apply UInt32.toNat_inj.1
  have hx := x.toNat_lt
  show ((x.toNat : Int) % 2 ^ 32).toNat % 2 ^ 32 = x.toNat
  omega

theorem Core.addressOf_eq (c : Core) (base : Gpr) (offset : UInt16) :
    c.addressOf base offset = c.word base + signExtend16To32 offset := by
  rw [addressOf, UInt32.ofInt_add, ofInt_toNat, ofInt_toInt16]

/-- In the core `c`, the instruction raises the exception. -/
inductive Raises (c : Core) : Instruction → Exception → Prop
  | syscall : Raises c .syscall .syscall
  | breakpoint : Raises c .breakpoint .breakpoint
  | trap {test : TrapTest} {rs rt : Gpr} (h : test.Compares (c.double rs) (c.double rt)) :
      Raises c (.trap test rs rt) .trap
  | trapImm {test : TrapTest} {rs : Gpr} {imm : UInt16}
      (h : test.Compares (c.double rs) (signExtend16 imm)) : Raises c (.trapImm test rs imm) .trap
  | load {op : LoadOp} {rt : Gpr} {offset : UInt16} {base : Gpr}
      (h : ¬op.width.bytes ∣ (c.addressOf base offset).toNat) :
      Raises c (.load op rt offset base) (.addressErrorLoad (c.addressOf base offset))
  | store {op : StoreOp} {rt : Gpr} {offset : UInt16} {base : Gpr}
      (h : ¬op.width.bytes ∣ (c.addressOf base offset).toNat) :
      Raises c (.store op rt offset base) (.addressErrorStore (c.addressOf base offset))
  | loadFloat {ft : Fpr} {offset : UInt16} {base : Gpr}
      (h : ¬4 ∣ (c.addressOf base offset).toNat) :
      Raises c (.loadFloat ft offset base) (.addressErrorLoad (c.addressOf base offset))
  | storeFloat {ft : Fpr} {offset : UInt16} {base : Gpr}
      (h : ¬4 ∣ (c.addressOf base offset).toNat) :
      Raises c (.storeFloat ft offset base) (.addressErrorStore (c.addressOf base offset))

/-- Whether an instruction can raise an exception at all. Accesses to bytes cannot. -/
def Instruction.mayRaise : Instruction → Bool
  | .syscall | .breakpoint | .trap _ _ _ | .trapImm _ _ _ => true
  | .load op _ _ _ => op.width ≠ .byte
  | .store op _ _ _ => op.width ≠ .byte
  | .loadFloat _ _ _ | .storeFloat _ _ _ => true
  | _ => false

namespace Raises

variable {c : Core} {i : Instruction} {e e' : Exception}

/-- An instruction raises one exception at most. -/
theorem unique (h : Raises c i e) (h' : Raises c i e') : e = e' := by
  cases h <;> cases h' <;> rfl

/-- What an instruction raises depends on the general registers only. -/
theorem congr {c' : Core} (h : Raises c i e) (hc : c'.registers = c.registers) : Raises c' i e := by
  have hdouble : ∀ r, c'.double r = c.double r := by
    intro r
    rw [Core.double, Core.quad, hc]
    rfl
  have haddress : ∀ base offset, c'.addressOf base offset = c.addressOf base offset := by
    intro base offset
    rw [Core.addressOf, Core.word, hdouble]
    rfl
  cases h with
  | syscall => exact .syscall
  | breakpoint => exact .breakpoint
  | trap h => exact .trap (by rwa [hdouble, hdouble])
  | trapImm h => exact .trapImm (by rwa [hdouble])
  | load h =>
    rw [← haddress] at h ⊢
    exact .load h
  | store h =>
    rw [← haddress] at h ⊢
    exact .store h
  | loadFloat h =>
    rw [← haddress] at h ⊢
    exact .loadFloat h
  | storeFloat h =>
    rw [← haddress] at h ⊢
    exact .storeFloat h

theorem mayRaise (h : Raises c i e) : i.mayRaise = true := by
  cases h with
  | load h =>
    refine decide_eq_true fun hw => h ?_
    rw [hw]
    exact Nat.one_dvd _
  | store h =>
    refine decide_eq_true fun hw => h ?_
    rw [hw]
    exact Nat.one_dvd _
  | _ => rfl

section Iff

variable {test : TrapTest} {rs rt base : Gpr} {ft : Fpr} {imm offset : UInt16}

theorem trap_iff : Raises c (.trap test rs rt) e ↔
    test.Compares (c.double rs) (c.double rt) ∧ e = .trap := by
  constructor
  · rintro ⟨⟩
    exact ⟨by assumption, rfl⟩
  · rintro ⟨h, rfl⟩
    exact .trap h

theorem trapImm_iff : Raises c (.trapImm test rs imm) e ↔
    test.Compares (c.double rs) (signExtend16 imm) ∧ e = .trap := by
  constructor
  · rintro ⟨⟩
    exact ⟨by assumption, rfl⟩
  · rintro ⟨h, rfl⟩
    exact .trapImm h

theorem load_iff {op : LoadOp} : Raises c (.load op rt offset base) e ↔
    ¬op.width.bytes ∣ (c.addressOf base offset).toNat ∧
      e = .addressErrorLoad (c.addressOf base offset) := by
  constructor
  · rintro ⟨⟩
    exact ⟨by assumption, rfl⟩
  · rintro ⟨h, rfl⟩
    exact .load h

theorem store_iff {op : StoreOp} : Raises c (.store op rt offset base) e ↔
    ¬op.width.bytes ∣ (c.addressOf base offset).toNat ∧
      e = .addressErrorStore (c.addressOf base offset) := by
  constructor
  · rintro ⟨⟩
    exact ⟨by assumption, rfl⟩
  · rintro ⟨h, rfl⟩
    exact .store h

theorem loadFloat_iff : Raises c (.loadFloat ft offset base) e ↔
    ¬Width.word.bytes ∣ (c.addressOf base offset).toNat ∧
      e = .addressErrorLoad (c.addressOf base offset) := by
  constructor
  · rintro ⟨⟩
    exact ⟨by assumption, rfl⟩
  · rintro ⟨h, rfl⟩
    exact .loadFloat h

theorem storeFloat_iff : Raises c (.storeFloat ft offset base) e ↔
    ¬Width.word.bytes ∣ (c.addressOf base offset).toNat ∧
      e = .addressErrorStore (c.addressOf base offset) := by
  constructor
  · rintro ⟨⟩
    exact ⟨by assumption, rfl⟩
  · rintro ⟨h, rfl⟩
    exact .storeFloat h

end Iff

end Raises

/-! ## Control transfers -/

/-- Where control goes after an instruction. -/
inductive Transfer where
  /-- To the instruction after it. -/
  | next
  /-- To the instruction after it, and from there to the target. -/
  | branch (target : UInt32)
  /-- Past the instruction after it. -/
  | skip
  /-- To the target. -/
  | resume (target : UInt32)
  deriving DecidableEq, Repr

/-- Where control goes after a conditional branch. -/
def Transfer.conditional (taken likely : Bool) (target : UInt32) : Transfer :=
  if taken then .branch target else if likely then .skip else .next

namespace Instruction

/-- Where control goes after an instruction at `pc`. -/
def transfer (i : Instruction) (pc : UInt32) (c : Core) : Transfer :=
  match i with
  | .jumpRegister rs => .branch (c.word rs)
  | .jumpLinkRegister _ rs => .branch (c.word rs)
  | .jump _ target => .branch (absoluteTarget pc target)
  | .branchPair test likely rs rt offset =>
    .conditional (test.holds (c.double rs) (c.double rt)) likely (relativeTarget pc offset)
  | .branchZero test likely rs offset =>
    .conditional (test.holds (c.double rs)) likely (relativeTarget pc offset)
  | .branchLink test likely rs offset =>
    .conditional (test.zeroTest.holds (c.double rs)) likely (relativeTarget pc offset)
  | .branchFloat condition likely offset =>
    .conditional (c.float.condition == condition) likely (relativeTarget pc offset)
  | .exceptionReturn => .resume c.control.exceptionReturn.1
  | _ => .next

/-- The core after an instruction at `pc` has written its link register, if it has one. -/
def link (i : Instruction) (pc : UInt32) (c : Core) : Core :=
  match i with
  | .jumpLinkRegister rd _ => c.setWord rd (pc + 8)
  | .jump true _ => c.setWord .ra (pc + 8)
  | .branchLink _ _ _ _ => c.setWord .ra (pc + 8)
  | _ => c

end Instruction

/-! ## The sequencing state -/

/-- The part of a core that says which instruction comes next, and the words fetched last. -/
structure Sequencing where
  branchTarget : UInt32
  isBranching : Bool
  delaySlot : UInt8
  current : UInt32
  next : UInt32

namespace Core

/-- The sequencing state of a core. -/
def sequencing (c : Core) : Sequencing :=
  ⟨c.branchTarget, c.isBranching, c.delaySlot, c.current, c.next⟩

@[simp] theorem sequencing_setQuad (c : Core) (r : Gpr) (value : Quad) :
    (c.setQuad r value).sequencing = c.sequencing := by
  unfold setQuad
  split <;> rfl

@[simp] theorem sequencing_setDouble (c : Core) (r : Gpr) (value : UInt64) :
    (c.setDouble r value).sequencing = c.sequencing :=
  sequencing_setQuad ..

@[simp] theorem sequencing_setWord (c : Core) (r : Gpr) (value : UInt32) :
    (c.setWord r value).sequencing = c.sequencing :=
  sequencing_setDouble ..

@[simp] theorem sequencing_setResult (c : Core) (half : ResultHalf) (pipe : Pipeline)
    (value : UInt64) : (c.setResult half pipe value).sequencing = c.sequencing := by
  cases half <;> rfl

@[simp] theorem sequencing_setResultWords (c : Core) (pipe : Pipeline) (hi lo : UInt32) :
    (c.setResultWords pipe hi lo).sequencing = c.sequencing := by
  simp [setResultWords]

@[simp] theorem sequencing_link (i : Instruction) (pc : UInt32) (c : Core) :
    (i.link pc c).sequencing = c.sequencing := by
  unfold Instruction.link
  split <;> simp

end Core

end R5900
