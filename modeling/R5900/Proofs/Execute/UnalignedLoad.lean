import R5900.Proofs.Execute.Branch
import R5900.Proofs.Execute.PartialAccess

/-!
# Unaligned loads

A left and a right partial load for the value at one address, executed one after the other, load the
value, whichever comes first and wherever the address lies in its word or doubleword
(`PairWidth.unaligned_load`).

One partial load takes the bytes that it moves from memory and keeps the other ones of the register
(`PairWidth.exists_loadPart`). The sign of a word is settled by either of the two: the left one
extends it, and the right one keeps an extended word extended, or extends it itself when it loads
all of it.
-/

namespace R5900

open Exec

/-! ## Registers -/

namespace Core

theorem pc_setDouble (c : Core) (r : Gpr) (value : UInt64) : (c.setDouble r value).pc = c.pc := by
  rw [setDouble, setQuad]
  split <;> rfl

theorem scratchpad_setDouble (c : Core) (r : Gpr) (value : UInt64) :
    (c.setDouble r value).scratchpad = c.scratchpad := by
  rw [setDouble, setQuad]
  split <;> rfl

theorem setDouble_withPc (c : Core) (r : Gpr) (value : UInt64) (pc : UInt32) :
    { c.setDouble r value with pc := pc } = { c with pc := pc }.setDouble r value := by
  simp only [setDouble, setQuad]
  split <;> rfl

/-- An effective address depends on the base register only. -/
theorem addressOf_setDouble_of_ne (c : Core) {r base : Gpr} (h : base ≠ r) (value : UInt64)
    (pc : UInt32) (offset : UInt16) :
    ({ c with pc := pc }.setDouble r value).addressOf base offset = c.addressOf base offset := by
  rw [addressOf_eq, addressOf_eq, word, double_setDouble_of_ne _ h.symm]
  rfl

end Core

/-- What a cell holds depends on the scratchpad and the bus only. -/
theorem Machine.virtualByte_congr {m m' : Machine} (hcore : m'.core.scratchpad = m.core.scratchpad)
    (hbus : m'.bus = m.bus) (a : UInt32) : m'.virtualByte a = m.virtualByte a := by
  have hbyte : m'.byteAt = m.byteAt := by
    funext cell
    unfold byteAt
    rw [hcore, hbus]
  rw [virtualByte, virtualByte, hbus, hbyte]

namespace PairWidth

variable {p : PairWidth} {side : Side} {rt : Gpr} {m : Machine} {a e : UInt32} {value : UInt64}

/-! ## Values that fit -/

theorem digit_signExtend32 (w : UInt32) {i : Nat} (hi : i < 4) :
    digit (signExtend32 w).toNat i = digit w.toNat i := by
  rw [← digit_toUInt32 _ hi, toUInt32_signExtend32]

theorem toUInt32_replace_low (x : UInt64) (w : UInt32) :
    (x &&& 0xFFFFFFFF00000000 ||| w.toUInt64).toUInt32 = w := by
  rw [UInt64.toUInt32_or, UInt64.toUInt32_and, UInt32.toUInt32_toUInt64]
  show x.toUInt32 &&& 0 ||| w = w
  rw [UInt32.and_zero, UInt32.zero_or]

/-- A doubleword that fits is told by its low bytes. -/
theorem eq_fit_of_digits {x : UInt64} (hfit : p.fit value = value)
    (h : ∀ i < p.bytes, digit value.toNat i = digit x.toNat i) : value = p.fit x := by
  have hlow : value.toNat % 256 ^ p.bytes = x.toNat % 256 ^ p.bytes := by
    rw [← ofDigitFn_digit, ← ofDigitFn_digit]
    exact ofDigitFn_congr h
  cases p with
  | word =>
    refine hfit.symm.trans (congrArg signExtend32 (UInt32.toNat_inj.1 ?_))
    rw [UInt64.toNat_toUInt32, UInt64.toNat_toUInt32]
    exact hlow
  | double =>
    refine UInt64.toNat_inj.1 ?_
    have hlow : value.toNat % 2 ^ 64 = x.toNat % 2 ^ 64 := hlow
    rwa [Nat.mod_eq_of_lt value.toNat_lt, Nat.mod_eq_of_lt x.toNat_lt] at hlow

/-! ## One partial load -/

/-- A partial load reads its block as a number and takes from it those bytes that have a place
there. A word is sign-extended after a left load, and after a right one if it was before. -/
theorem exists_loaded (p : PairWidth) (side : Side) (rt : Gpr) {cell : Cell}
    (h : m.bus.cellAt? e = some cell) :
    ∃ (value : UInt64) (journal : Journal) (memory : Nat),
      (Exec.loadPart (p.load side) rt e).run m =
        .done () { m with core := m.core.setDouble rt value, journal := journal } ∧
      (∀ j < p.bytes, digit memory j = m.virtualByte (p.block e + UInt32.ofNat j)) ∧
      (∀ i < p.bytes, digit value.toNat i =
        (p.blockByte? side (e.toNat % p.bytes) i).elim (digit (m.core.double rt).toNat i)
          (digit memory)) ∧
      (side = .left ∨ p.fit (m.core.double rt) = m.core.double rt → p.fit value = value) := by
  have hold : ∀ i < 4, digit (m.core.word rt).toNat i = digit (m.core.double rt).toNat i :=
    fun i hi => digit_toUInt32 _ hi
  cases p with
  | word =>
    obtain ⟨memory, journal, hread, hmemory⟩ := Machine.read_wordBlock h
    cases side with
    | left =>
      refine ⟨signExtend32 (placeAbove32 (m.core.word rt) memory (24 - 8 * (e &&& 3))), journal,
        memory.toNat, run_bind_done hread, hmemory, fun i hi => ?_, fun _ => ?_⟩
      · rw [digit_signExtend32 _ hi, digit_loadLeft32 e _ _ hi, hold i hi]
        rfl
      · exact signExtended_signExtend32 _
    | right =>
      -- only a right load of the whole word extends it; any other keeps the high word
      by_cases hzero : e &&& 3 = 0
      · refine ⟨signExtend32 (placeBelow32 (m.core.word rt) memory (8 * (e &&& 3))), journal,
          memory.toNat, (run_bind_done hread).trans ?_, hmemory, fun i hi => ?_, fun _ => ?_⟩
        · show Outcome.done () { m with core := if _ then _ else _, journal := journal } = _
          rw [if_pos hzero]
          rfl
        · rw [digit_signExtend32 _ hi, digit_loadRight32 e _ _ hi, hold i hi]
          rfl
        · exact signExtended_signExtend32 _
      · refine ⟨m.core.double rt &&& 0xFFFFFFFF00000000 |||
          (placeBelow32 (m.core.word rt) memory (8 * (e &&& 3))).toUInt64, journal,
          memory.toNat, (run_bind_done hread).trans ?_, hmemory, fun i hi => ?_,
          fun hextended => ?_⟩
        · show Outcome.done () { m with core := if _ then _ else _, journal := journal } = _
          rw [if_neg hzero]
        · rw [← digit_toUInt32 _ hi, toUInt32_replace_low, digit_loadRight32 e _ _ hi, hold i hi]
          rfl
        · have hextended : SignExtended (m.core.double rt) := hextended.resolve_left (by decide)
          exact hextended.replace_low (testBit32_placeBelow32 _ _ (shift_mod_ne_zero hzero))
  | double =>
    obtain ⟨memory, journal, hread, hmemory⟩ := Machine.read_doubleBlock h
    cases side with
    | left =>
      exact ⟨placeAbove64 (m.core.double rt) memory (56 - 8 * (e &&& 7).toUInt64), journal,
        memory.toNat, run_bind_done hread, hmemory, fun i hi => digit_loadLeft64 e _ _ hi,
        fun _ => rfl⟩
    | right =>
      exact ⟨placeBelow64 (m.core.double rt) memory (8 * (e &&& 7).toUInt64), journal,
        memory.toNat, run_bind_done hread, hmemory, fun i hi => digit_loadRight64 e _ _ hi,
        fun _ => rfl⟩

/-- A partial load takes the bytes that it moves from memory and keeps the others. -/
theorem run_loadPart (p : PairWidth) (side : Side) (rt : Gpr) {cell : Cell}
    (h : m.bus.cellAt? e = some cell) :
    ∃ value journal, (Exec.loadPart (p.load side) rt e).run m =
        .done () { m with core := m.core.setDouble rt value, journal := journal } ∧
      (∀ i < p.bytes, digit value.toNat i =
        (p.place side e i).elim (digit (m.core.double rt).toNat i) m.virtualByte) ∧
      (side = .left ∨ p.fit (m.core.double rt) = m.core.double rt → p.fit value = value) := by
  obtain ⟨value, journal, memory, hrun, hmemory, hdigits, hfit⟩ := exists_loaded p side rt h
  refine ⟨value, journal, hrun, fun i hi => ?_, hfit⟩
  rw [hdigits i hi, place]
  cases hplace : p.blockByte? side (e.toNat % p.bytes) i with
  | none => rfl
  | some j => exact hmemory j (blockByte?_lt hi hplace)

/-- A partial load for the value at an address takes the bytes that it moves from memory and keeps
the others. -/
theorem exists_loadPart {offset : UInt16} {base : Gpr}
    (haddress : m.core.addressOf base offset = p.point side a)
    (h : (m.bus.cellAt? (p.point side a)).isSome) (rt : Gpr) :
    ∃ value journal, (Instruction.interpret (.loadPart (p.load side) rt offset base)).run m =
        .done () { m with
          core := { m.core with pc := m.core.pc + 4 }.setDouble rt value, journal := journal } ∧
      (∀ i < p.bytes, digit value.toNat i =
        if p.Moves side a i then m.virtualByte (a + UInt32.ofNat i)
        else digit (m.core.double rt).toNat i) ∧
      (side = .left ∨ p.fit (m.core.double rt) = m.core.double rt → p.fit value = value) := by
  obtain ⟨cell, hcell⟩ := Option.isSome_iff_exists.1 h
  obtain ⟨value, journal, hrun, hdigits, hfit⟩ := run_loadPart p side rt hcell
  refine ⟨value, journal, ?_, fun i hi => ?_, hfit⟩
  · rw [← haddress] at hrun
    rw [Instruction.interpret_of_execute (Instruction.run_loadPart hrun), Core.setDouble_withPc]
  · rw [hdigits i hi, place_point hi]
    split <;> rfl

/-! ## Pairs -/

/-- The partial loads of a pair one after the other, the one of a side first. Each has a base
register and an offset of its own. -/
def loads (p : PairWidth) (first : Side) (rt : Gpr) (base : Side → Gpr) (offset : Side → UInt16) :
    Exec Unit := do
  Instruction.interpret (.loadPart (p.load first) rt (offset first) (base first))
  Instruction.interpret (.loadPart (p.load first.other) rt (offset first.other) (base first.other))

/-- The value of the bytes from a virtual address up, lowest first. -/
def valueAt (p : PairWidth) (m : Machine) (a : UInt32) : UInt64 :=
  UInt64.ofNat (ofDigitFn (fun i => m.virtualByte (a + UInt32.ofNat i)) p.bytes)

theorem digit_valueAt (m : Machine) (a : UInt32) {i : Nat} (hi : i < p.bytes) :
    digit (p.valueAt m a).toNat i = m.virtualByte (a + UInt32.ofNat i) := by
  have hlt := ofDigitFn_lt (fun i => m.virtualByte (a + UInt32.ofNat i)) p.bytes
  have hle : 256 ^ p.bytes ≤ 2 ^ 64 := by rcases p.bytes_cases with h | h <;> rw [h] <;> decide
  rw [valueAt, UInt64.toNat_ofNat_of_lt' (Nat.lt_of_lt_of_le hlt hle), digit_ofDigitFn _ hi]

/-- The partial loads of a pair for the value at an address, in either order, load the bytes of the
value, and leave a word sign-extended. -/
theorem exists_loads {first : Side} {base : Side → Gpr} {offset : Side → UInt16}
    (hrt : rt ≠ .zero) (hbase : ∀ side, base side ≠ rt)
    (haddress : ∀ side, m.core.addressOf (base side) (offset side) = p.point side a)
    (hmemory : ∀ side, (m.bus.cellAt? (p.point side a)).isSome) :
    ∃ value journal, (p.loads first rt base offset).run m = .done () { m with
        core := { m.core with pc := m.core.pc + 8 }.setDouble rt value
        journal := journal } ∧
      p.fit value = value ∧
      ∀ i < p.bytes, digit value.toNat i = m.virtualByte (a + UInt32.ofNat i) := by
  obtain ⟨value, journal, hrun, hdigits, hfit⟩ :=
    exists_loadPart (haddress first) (hmemory first) rt
  generalize hm' : ({ m with
    core := { m.core with pc := m.core.pc + 4 }.setDouble rt value,
    journal := journal } : Machine) = m' at hrun
  have hbus : m'.bus = m.bus := by rw [← hm']
  have hdouble : m'.core.double rt = value := by
    rw [← hm']
    exact Core.double_setDouble_self _ hrt value
  have hbyte : ∀ a, m'.virtualByte a = m.virtualByte a := fun a => by
    refine Machine.virtualByte_congr ?_ hbus a
    rw [← hm']
    exact Core.scratchpad_setDouble ..
  have haddress' : m'.core.addressOf (base first.other) (offset first.other) =
      p.point first.other a := by
    rw [← haddress first.other, ← hm']
    exact Core.addressOf_setDouble_of_ne _ (hbase first.other) ..
  obtain ⟨value', journal', hrun', hdigits', hfit'⟩ :=
    exists_loadPart haddress' (hbus ▸ hmemory first.other) rt
  refine ⟨value', journal', (run_bind_done hrun).trans (hrun'.trans ?_), hfit' ?_, fun i hi => ?_⟩
  · rw [← hm', Core.pc_setDouble, Core.setDouble_withPc, Core.setDouble_setDouble, UInt32.add_assoc]
    rfl
  · -- one of the two is the left load, after which a word stays sign-extended
    cases first with
    | left => exact .inr (hdouble ▸ hfit (.inl rfl))
    | right => exact .inl rfl
  · rw [hdigits' i hi, hbyte, hdouble, hdigits i hi]
    rcases moves_or (p := p) (a := a) first hi with hmoves | hmoves
    · rw [if_pos hmoves, ite_self]
    · rw [if_pos hmoves]

/-- **A pair of partial loads is an unaligned load.** Let the effective addresses of the left and
the right partial load of a width be the last and the first byte of the value at an address, and let
both name a cell of memory. Executed in either order they load the value, a word sign-extended, into
the low doubleword of the register, and change nothing else but the program counter, which passes
them both, and the journal. -/
theorem unaligned_load (p : PairWidth) (first : Side) (m : Machine) (a : UInt32) {rt : Gpr}
    {base : Side → Gpr} {offset : Side → UInt16} (hrt : rt ≠ .zero) (hbase : ∀ side, base side ≠ rt)
    (haddress : ∀ side, m.core.addressOf (base side) (offset side) = p.point side a)
    (hmemory : ∀ side, (m.bus.cellAt? (p.point side a)).isSome) :
    ∃ journal, (p.loads first rt base offset).run m = .done () { m with
      core := { m.core with pc := m.core.pc + 8 }.setDouble rt (p.fit (p.valueAt m a))
      journal := journal } := by
  obtain ⟨value, journal, hrun, hfit, hdigits⟩ := exists_loads hrt hbase haddress hmemory
  have hvalue : value = p.fit (p.valueAt m a) :=
    eq_fit_of_digits hfit fun i hi => (hdigits i hi).trans (digit_valueAt m a hi).symm
  exact ⟨journal, hvalue ▸ hrun⟩

/-- A word at an odd address, loaded by the left load first. -/
theorem unaligned_load_word :
    let m : Machine := ⟨Core.initial.setWord ⟨8⟩ 0x1000, Bus.initial, .silent⟩
    let offset : Side → UInt16
      | .left => 4
      | .right => 1
    ∃ journal, (word.loads .left ⟨9⟩ (fun _ => ⟨8⟩) offset).run m = .done () { m with
      core := { m.core with pc := m.core.pc + 8 }.setDouble ⟨9⟩ (word.fit (word.valueAt m 0x1001))
      journal := journal } := by
  intro m offset
  have haddress : ∀ side, m.core.addressOf ⟨8⟩ (offset side) = word.point side 0x1001 := by
    rintro (_ | _) <;> decide +kernel
  have hmemory : ∀ side, (m.bus.cellAt? (word.point side 0x1001)).isSome := by
    rintro (_ | _) <;> rw [Bus.cellAt?_eq] <;> rfl
  exact unaligned_load word .left m 0x1001 (by decide) (fun _ => by decide) haddress hmemory

end PairWidth

end R5900
