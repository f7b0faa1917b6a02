import Mathlib.Data.Nat.Find
import R5900.Proofs.BitField
import R5900.Proofs.Bytes
import R5900.Proofs.Execute.Instruction
import R5900.Proofs.Register

/-!
# Counting sign bits

The sign count of a word says how many bits below its sign bit repeat it. The processor computes it
as a count of leading zeros, after it has complemented a word with the sign bit set, and for both
low words of a register at once.

* `signCount`: the count as a greatest number of equal top bits.
* `CountsSign`: the same in signed numbers. A word with the count `k` fits `32 - k` bits and no
  fewer.
* `signRepeats_eq`: what is computed is the count, and it is never taken one down from zero.
* `Instruction.interpret_leadingSigns`: the instruction writes the counts of both words.
-/

namespace R5900

open Exec

/-! ## The count of a word -/

/-- The top `k + 1` bits of a word are all equal. -/
def TopBitsAgree (w : UInt32) (k : Nat) : Prop :=
  ∀ i < 32, 31 ≤ i + k → w.toNat.testBit i = w.toNat.testBit 31

instance (w : UInt32) : DecidablePred (TopBitsAgree w) := fun _ => Nat.decidableBallLT ..

/-- How many bits below the sign bit repeat it: the greatest `k` for which the top `k + 1` bits
agree. -/
def signCount (w : UInt32) : Nat := Nat.findGreatest (TopBitsAgree w) 31

/-- A signed word lies in the range of two's complement numbers of `n + 1` bits. -/
def FitsSigned (w : UInt32) (n : Nat) : Prop :=
  -2 ^ n ≤ w.toInt32.toInt ∧ w.toInt32.toInt < 2 ^ n

/-- A word with its bits flipped if the sign bit is set. -/
def withoutSign (w : UInt32) : UInt32 := if testBit32 w 31 then ~~~w else w

theorem testBit_withoutSign (w : UInt32) {i : Nat} (hi : i < 32) :
    (withoutSign w).toNat.testBit i = (w.toNat.testBit i ^^ w.toNat.testBit 31) := by
  have htop : testBit32 w 31 = w.toNat.testBit 31 := testBit32_eq w 31
  have hnot : (~~~w).toNat.testBit i = !w.toNat.testBit i := by
    show (~~~w.toBitVec).getLsbD i = !w.toBitVec.getLsbD i
    rw [BitVec.getLsbD_not, decide_eq_true hi, Bool.true_and]
  rw [withoutSign, htop]
  cases w.toNat.testBit 31 with
  | true => rw [if_pos rfl, hnot, Bool.xor_true]
  | false => rw [if_neg Bool.false_ne_true, Bool.xor_false]

section Equivalents

variable (w : UInt32) {k : Nat}

/-- Equal top bits are leading zeros once the sign is taken off. -/
theorem topBitsAgree_iff (hk : k ≤ 31) :
    TopBitsAgree w k ↔ (withoutSign w).toNat < 2 ^ (31 - k) := by
  constructor
  · intro h
    refine Nat.lt_pow_two_of_testBit _ fun i hi => ?_
    by_cases hi' : i < 32
    · rw [testBit_withoutSign w hi', h i hi' (by omega), Bool.xor_self]
    · exact Nat.testBit_lt_two_pow (Nat.lt_of_lt_of_le (withoutSign w).toNat_lt
        (Nat.pow_le_pow_right (by decide) (Nat.le_of_not_lt hi')))
  · intro h i hi hki
    have hclear : (withoutSign w).toNat.testBit i = false :=
      Nat.testBit_lt_two_pow (Nat.lt_of_lt_of_le h (Nat.pow_le_pow_right (by decide) (by omega)))
    rw [testBit_withoutSign w hi] at hclear
    exact bne_eq_false_iff_eq.1 hclear

theorem withoutSign_lt : (withoutSign w).toNat < 2 ^ 31 :=
  (topBitsAgree_iff w (Nat.zero_le _)).1 fun i hi hi' => by rw [show i = 31 by omega]

theorem fitsSigned_iff : FitsSigned w (31 - k) ↔ (withoutSign w).toNat < 2 ^ (31 - k) := by
  have hpow : 2 ^ (31 - k) ≤ 2 ^ 31 := Nat.pow_le_pow_right (by decide) (Nat.sub_le ..)
  have hint : w.toInt32.toInt =
      if 2 * w.toNat < 2 ^ 32 then (w.toNat : Int) else w.toNat - 2 ^ 32 :=
    BitVec.toInt_eq_toNat_cond w.toBitVec
  have hcast : (2 : Int) ^ (31 - k) = ((2 ^ (31 - k) : Nat) : Int) := by norm_cast
  have hlt := w.toNat_lt
  rw [FitsSigned, hint, hcast, withoutSign]
  generalize 2 ^ (31 - k) = n at hpow ⊢
  by_cases h : testBit32 w 31 = true
  · have hneg : ¬w.toNat < 2 ^ 31 := by
      rw [← testBit32_top, h]
      exact Bool.noConfusion
    rw [if_pos h, UInt32.toNat_not, if_neg (by omega), UInt32.size]
    omega
  · have hpos := (testBit32_top w).1 (Bool.eq_false_iff.2 h)
    rw [if_neg h, if_pos (by omega)]
    omega

end Equivalents

/-- The number `k` counts the bits below the sign bit that repeat it. -/
structure CountsSign (w : UInt32) (k : Nat) : Prop where
  greatest : IsGreatest {k | k ≤ 31 ∧ TopBitsAgree w k} k
  fits : FitsSigned w (31 - k)
  tight : k < 31 → ¬FitsSigned w (30 - k)

theorem topBitsAgree_signCount (w : UInt32) : TopBitsAgree w (signCount w) :=
  Nat.findGreatest_spec (Nat.zero_le 31) fun i hi hi' => by rw [show i = 31 by omega]

theorem signCount_le (w : UInt32) : signCount w ≤ 31 := Nat.findGreatest_le 31

/-- **The greatest number of equal top bits is the least number of bits that hold the word.** -/
theorem countsSign_signCount (w : UInt32) : CountsSign w (signCount w) where
  greatest := ⟨⟨signCount_le w, topBitsAgree_signCount w⟩, fun _ hk =>
    Nat.le_findGreatest hk.1 hk.2⟩
  fits := (fitsSigned_iff w).2 ((topBitsAgree_iff w (signCount_le w)).1 (topBitsAgree_signCount w))
  tight hlt hfits := by
    -- a word that fits into one bit less has one more top bit that agrees
    rw [show 30 - signCount w = 31 - (signCount w + 1) by omega] at hfits
    have hnext : TopBitsAgree w (signCount w + 1) :=
      (topBitsAgree_iff w hlt).2 ((fitsSigned_iff w).1 hfits)
    exact Nat.not_succ_le_self _ (Nat.le_findGreatest hlt hnext)

/-! ## What is computed -/

/-- The leading zeros of a word with a clear sign bit, one of them left out, say below which powers
of two the word lies. -/
theorem exists_leadingZeros {x : UInt32} (hx : x.toNat < 2 ^ 31) :
    ∃ n ≤ 31, (leadingZeros x).toNat = n + 1 ∧ ∀ k ≤ 31, x.toNat < 2 ^ (31 - k) ↔ k ≤ n := by
  unfold leadingZeros
  split
  · rename_i h0
    subst h0
    exact ⟨31, Nat.le_refl _, rfl, fun k hk => ⟨fun _ => hk, fun _ => Nat.two_pow_pos _⟩⟩
  · rename_i h0
    have hne : x.toNat ≠ 0 := fun h => h0 (UInt32.toNat_inj.1 h)
    have hlog : x.toNat.log2 < 31 := log2_lt_of_top_clear h0 hx
    have hle : x.log2.toUInt64 ≤ 31 := by
      rw [UInt64.le_iff_toNat_le, UInt32.toNat_toUInt64]
      exact Nat.le_of_lt hlog
    have hcount : (31 - x.log2.toUInt64 : UInt64).toNat = 31 - x.toNat.log2 := by
      rw [UInt64.toNat_sub_of_le _ _ hle, UInt32.toNat_toUInt64]
      rfl
    refine ⟨30 - x.toNat.log2, by omega, by omega, fun k hk => ?_⟩
    rw [← Nat.log2_lt hne]
    omega

/-- **What is computed is the sign count.** -/
theorem signRepeats_eq (w : UInt32) : signRepeats w = .ok (UInt64.ofNat (signCount w)) := by
  obtain ⟨n, hn, hzeros, hbelow⟩ := exists_leadingZeros (withoutSign_lt w)
  have hagree : ∀ k ≤ 31, TopBitsAgree w k ↔ k ≤ n := fun k hk =>
    (topBitsAgree_iff w hk).trans (hbelow k hk)
  have hcount : signCount w = n :=
    Nat.le_antisymm ((hagree _ (signCount_le w)).1 (topBitsAgree_signCount w))
      (Nat.le_findGreatest hn ((hagree n hn).2 (Nat.le_refl n)))
  have hone : (1 : UInt64) ≤ leadingZeros (withoutSign w) := by
    rw [UInt64.le_iff_toNat_le, hzeros]
    exact Nat.succ_le_succ (Nat.zero_le n)
  have hsub : leadingZeros (withoutSign w) - 1 = UInt64.ofNat (signCount w) := by
    apply UInt64.toNat_inj.1
    rw [UInt64.toNat_sub_of_le _ _ hone, hzeros, hcount,
      UInt64.toNat_ofNat_of_lt' (Nat.lt_of_le_of_lt hn (by decide))]
    rfl
  rw [signRepeats, Checked.sub64, ← withoutSign, if_neg (UInt64.not_lt.2 hone), hsub]

theorem toUInt32_joinDouble (low high : UInt32) : (joinDouble low high).toUInt32 = low := by
  have hlow := low.toNat_lt
  apply UInt32.toNat_inj.1
  rw [UInt64.toNat_toUInt32, toNat_joinDouble]
  omega

theorem high_joinDouble (low high : UInt32) :
    (joinDouble low high >>> (32 : UInt64)).toUInt32 = high := by
  have hlow := low.toNat_lt
  have hhigh := high.toNat_lt
  apply UInt32.toNat_inj.1
  rw [UInt64.toNat_toUInt32, UInt64.toNat_shiftRight, toNat_joinDouble]
  show (low.toNat + high.toNat * 2 ^ 32) >>> 32 % 2 ^ 32 = high.toNat
  rw [Nat.shiftRight_eq_div_pow]
  omega

theorem toNat_ofNat_signCount (w : UInt32) : (UInt32.ofNat (signCount w)).toNat = signCount w :=
  UInt32.toNat_ofNat_of_lt' (Nat.lt_of_le_of_lt (signCount_le w) (by decide))

/-- The counts of both words of a doubleword, each in its place. -/
theorem leadingSignsOf_eq (a : UInt64) : leadingSignsOf a =
    .ok (joinDouble (UInt32.ofNat (signCount a.toUInt32))
      (UInt32.ofNat (signCount (a >>> (32 : UInt64)).toUInt32))) := by
  have hwiden (w : UInt32) :
      (UInt32.ofNat (signCount w)).toUInt64 = UInt64.ofNat (signCount w) := by
    apply UInt64.toNat_inj.1
    rw [UInt32.toNat_toUInt64, toNat_ofNat_signCount,
      UInt64.toNat_ofNat_of_lt' (Nat.lt_of_le_of_lt (signCount_le w) (by decide))]
  rw [leadingSignsOf, signRepeats_eq, signRepeats_eq, joinDouble, hwiden, hwiden]
  rfl

/-! ## The instruction -/

/-- The second word of a general register. -/
def Core.highWord (c : Core) (r : Gpr) : UInt32 := (c.double r >>> (32 : UInt64)).toUInt32

/-- **Both low words of the destination are sign counts.** On every machine the instruction is done,
also when a register is its own destination. Each of the two low words of the destination is then
the sign count of the same word of the source and depends on that word alone: the greatest `k` up to
31 for which its top `k + 1` bits agree, so that the word lies between `-2 ^ (31 - k)` and
`2 ^ (31 - k)`, and for no greater `k`. The high doubleword of the destination and all else stay as
they are, but for the program counter, which moves on. -/
theorem Instruction.interpret_leadingSigns {rd : Gpr} (hrd : rd ≠ .zero) (rs : Gpr) (m : Machine) :
    ∃ m', (leadingSigns rd rs).interpret.run m = .done () m' ∧
      (m'.core.word rd).toNat = signCount (m.core.word rs) ∧
      (m'.core.highWord rd).toNat = signCount (m.core.highWord rs) ∧
      CountsSign (m.core.word rs) (m'.core.word rd).toNat ∧
      CountsSign (m.core.highWord rs) (m'.core.highWord rd).toNat ∧
      (m'.core.quad rd).hi = (m.core.quad rd).hi ∧
      (∀ r, r ≠ rd → m'.core.quad r = m.core.quad r) ∧
      m' = { m with core := { m.core with
        pc := m.core.pc + 4, registers := m'.core.registers } } := by
  let v := joinDouble (UInt32.ofNat (signCount (m.core.word rs)))
    (UInt32.ofNat (signCount (m.core.highWord rs)))
  let c := m.core.setDouble rd v
  have hrun : (execute (.leadingSigns rd rs) m.core.pc).run m =
      .done (m.core.pc + 4) { m with core := c } := by
    have hchecked : leadingSignsOf (m.core.double rs) = .ok v := leadingSignsOf_eq _
    simp only [execute, setChecked, run_ofCore_bind, bind_bind, run_ofChecked_bind hchecked,
      run_onCore_bind, run_pure, c]
  have hdouble : c.double rd = v := m.core.double_setDouble_self hrd v
  have hlow : (c.word rd).toNat = signCount (m.core.word rs) := by
    rw [Core.word, hdouble, toUInt32_joinDouble, toNat_ofNat_signCount]
  have hhigh : (c.highWord rd).toNat = signCount (m.core.highWord rs) := by
    rw [Core.highWord, hdouble, high_joinDouble, toNat_ofNat_signCount]
  have hcore : c = { m.core with registers := c.registers } :=
    Core.setDouble_eq_of_registers rd rfl v
  refine ⟨_, interpret_of_execute hrun, hlow, hhigh, ?_, ?_, m.core.hi_quad_setDouble rd rd v,
    fun r hr => m.core.quad_setQuad_of_ne hr.symm _, ?_⟩
  · exact hlow ▸ countsSign_signCount _
  · exact hhigh ▸ countsSign_signCount _
  · exact congrArg (fun c : Core => (⟨{ c with pc := m.core.pc + 4 }, m.bus, m.journal⟩ : Machine))
      hcore

/-- `PLZCW t0, t0` where the words of `t0` are one and, above it, the least word. -/
theorem Instruction.interpret_leadingSigns_least :
    let m : Machine := ⟨Core.initial.setQuad ⟨8⟩ ⟨0x8000000000000001, 0xFF⟩, .initial, .silent⟩
    (⟨8⟩ : Gpr) ≠ .zero ∧ decode 0x71004004 = leadingSigns ⟨8⟩ ⟨8⟩ ∧
      ∃ m', (decode 0x71004004).interpret.run m = .done () m' ∧
        (m'.core.word ⟨8⟩).toNat = 30 ∧ (m'.core.highWord ⟨8⟩).toNat = 0 ∧
        (m'.core.quad ⟨8⟩).hi = 0xFF := by
  intro m
  have ht0 : (⟨8⟩ : Gpr) ≠ .zero := by decide
  have hdecode : decode 0x71004004 = leadingSigns ⟨8⟩ ⟨8⟩ := by decide
  have hquad : m.core.quad ⟨8⟩ = ⟨0x8000000000000001, 0xFF⟩ := Core.initial.quad_setQuad_self ht0 _
  have hlow : signCount (m.core.word ⟨8⟩) = 30 := by
    rw [Core.word, Core.double, hquad]
    decide +kernel
  have hhigh : signCount (m.core.highWord ⟨8⟩) = 0 := by
    rw [Core.highWord, Core.double, hquad]
    decide +kernel
  obtain ⟨m', hrun, hword, hhighWord, -, -, hhi, -⟩ := interpret_leadingSigns ht0 ⟨8⟩ m
  exact ⟨ht0, hdecode, m', hdecode ▸ hrun, hword.trans hlow, hhighWord.trans hhigh,
    hhi.trans (congrArg Quad.hi hquad)⟩

end R5900
