import R5900.Proofs.Bytes
import R5900.Proofs.Execute.WordProgram
import R5900.Proofs.Execute.WriteSet

/-!
# Multiply-accumulate chains

The low words of a pipeline's multiply result spell a doubleword, its accumulator. A multiplication
leaves the product of two words there, and an accumulating one adds the product to what was there,
modulo `2 ^ 64`.

* `product_eq`: the product of two words is that of the numbers that they denote, and fits a
  doubleword.
* `Core.Accumulated`: what an instruction with a product leaves in the multiply result and in its
  destination.
* `Machine.interpretAll_accumulates`: over any sequence of instructions of which only those with a
  product write the multiply result of the pipeline, the accumulator ends as the one it began with,
  or as the last product that was not added, plus the sum of all products after that.
-/

namespace R5900

open Exec

/-! ## Products of words -/

/-- The number that a word denotes, signed or not. -/
def wordValue (signed : Bool) (w : UInt32) : Int := if signed then w.toInt32.toInt else w.toNat

theorem ofInt_toInt64 (x : Int64) : UInt64.ofInt x.toInt = x.toUInt64 := by
  apply UInt64.toNat_inj.1
  have hx : x.toInt = if 2 * x.toUInt64.toNat < 2 ^ 64 then (x.toUInt64.toNat : Int)
      else x.toUInt64.toNat - 2 ^ 64 := BitVec.toInt_eq_toNat_cond x.toBitVec
  have hlt := x.toUInt64.toNat_lt
  show (x.toInt % 2 ^ 64).toNat % 2 ^ 64 = x.toUInt64.toNat
  split at hx <;> omega

theorem ofInt_wordValue_true (w : UInt32) :
    UInt64.ofInt (wordValue true w) = w.toInt32.toInt64.toUInt64 := by
  rw [← ofInt_toInt64, Int32.toInt_toInt64]
  rfl

theorem ofInt_wordValue_false (w : UInt32) : UInt64.ofInt (wordValue false w) = w.toUInt64 := by
  apply UInt64.toNat_inj.1
  have hw := w.toNat_lt
  rw [UInt32.toNat_toUInt64]
  show ((w.toNat : Int) % 2 ^ 64).toNat % 2 ^ 64 = w.toNat
  omega

/-- **The product of two words is the product of their numbers**, signed or not; it always fits a
doubleword. -/
theorem product_eq (signed : Bool) (a b : UInt32) :
    product signed a b = .ok (UInt64.ofInt (wordValue signed a * wordValue signed b)) := by
  obtain ⟨v, hv⟩ := product_eq_ok signed a b
  rw [hv, UInt64.ofInt_mul]
  cases signed with
  | true =>
    rw [ofInt_wordValue_true, ofInt_wordValue_true]
    simp only [product, if_true, Checked.mulSigned64] at hv
    split at hv <;> cases hv
    rfl
  | false =>
    rw [ofInt_wordValue_false, ofInt_wordValue_false]
    simp only [product, Bool.false_eq_true, if_false, Checked.mul64] at hv
    split at hv <;> cases hv
    rfl

/-- A doubleword is joined from its own words. -/
theorem joinDouble_words (v : UInt64) :
    joinDouble v.toUInt32 (v >>> (32 : UInt64)).toUInt32 = v := by
  apply UInt64.toNat_inj.1
  have hv := v.toNat_lt
  have hhigh : (v >>> (32 : UInt64)).toUInt32.toNat = v.toNat / 2 ^ 32 := by
    rw [UInt64.toNat_toUInt32, UInt64.toNat_shiftRight]
    show v.toNat >>> 32 % 2 ^ 32 = v.toNat / 2 ^ 32
    rw [Nat.shiftRight_eq_div_pow]
    omega
  rw [toNat_joinDouble, hhigh, UInt64.toNat_toUInt32]
  omega

/-! ## Instructions with a product -/

/-- An instruction that multiplies two words, signed or not, and adds the product to the accumulator
of a pipeline or replaces it. -/
structure ProductOp where
  adds : Bool
  signed : Bool
  rd : Gpr
  rs : Gpr
  rt : Gpr

/-- The product that an instruction computes for the accumulator of a pipeline. -/
def Instruction.product? (pipe : Pipeline) : Instruction → Option ProductOp
  | .multiply signed p rd rs rt => if p = pipe then some ⟨false, signed, rd, rs, rt⟩ else none
  | .multiplyAdd signed p rd rs rt => if p = pipe then some ⟨true, signed, rd, rs, rt⟩ else none
  | _ => none

namespace ProductOp

/-- The product of the low words of the sources. -/
def value (x : ProductOp) (c : Core) : Int :=
  wordValue x.signed (c.word x.rs) * wordValue x.signed (c.word x.rt)

/-- What the accumulator of the pipeline holds afterwards. -/
def next (x : ProductOp) (pipe : Pipeline) (c : Core) : UInt64 :=
  if x.adds then c.accumulator pipe + UInt64.ofInt (x.value c) else UInt64.ofInt (x.value c)

end ProductOp

namespace Core

/-- The core `c'` holds what an instruction with a product leaves that is executed in the core `c`:
its accumulator in sign-extended words, and the low one of them in the destination, whose high
doubleword is kept. -/
structure Accumulated (pipe : Pipeline) (x : ProductOp) (c c' : Core) : Prop where
  accumulator : c'.accumulator pipe = x.next pipe c
  result : ∀ half, SignExtended (pipe.part (c'.result half))
  destination : x.rd ≠ .zero → c'.double x.rd = signExtend32 (x.next pipe c).toUInt32
  high : (c'.quad x.rd).hi = (c.quad x.rd).hi

/-- Writing a doubleword as the multiply result of a pipeline, and its low word to a register. -/
theorem accumulated_setResultWords (c : Core) {pipe : Pipeline} {x : ProductOp} {v : UInt64}
    (hv : x.next pipe c = v) : Accumulated pipe x c
      ((c.setResultWords pipe (v >>> (32 : UInt64)).toUInt32 v.toUInt32).setWord x.rd
        v.toUInt32) := by
  let c₁ := c.setResultWords pipe (v >>> (32 : UInt64)).toUInt32 v.toUInt32
  have hregisters : c₁.registers = c.registers := rfl
  have hset : c₁.setWord x.rd v.toUInt32 =
      { c₁ with registers := (c.setWord x.rd v.toUInt32).registers } :=
    setDouble_eq_of_registers x.rd hregisters _
  have hhi : pipe.part c₁.hi = signExtend32 (v >>> (32 : UInt64)).toUInt32 :=
    pipe.part_replace_self c.hi _
  have hlo : pipe.part c₁.lo = signExtend32 v.toUInt32 := pipe.part_replace_self c.lo _
  refine ⟨?_, fun half => ?_, fun hrd => ?_, ?_⟩
  · rw [hv, hset]
    show joinDouble (pipe.part c₁.lo).toUInt32 (pipe.part c₁.hi).toUInt32 = v
    rw [hhi, hlo, toUInt32_signExtend32, toUInt32_signExtend32, joinDouble_words]
  · rw [hset]
    cases half with
    | hi => exact hhi ▸ signExtended_signExtend32 _
    | lo => exact hlo ▸ signExtended_signExtend32 _
  · rw [hv]
    exact c₁.double_setDouble_self hrd _
  · exact c₁.hi_quad_setDouble x.rd x.rd _

theorem accumulator_congr {c c' : Core} {pipe : Pipeline}
    (h : ∀ half, pipe.part (c'.result half) = pipe.part (c.result half)) :
    c'.accumulator pipe = c.accumulator pipe := by
  have hhi : pipe.part c'.hi = pipe.part c.hi := h .hi
  have hlo : pipe.part c'.lo = pipe.part c.lo := h .lo
  rw [accumulator, accumulator, hhi, hlo]

end Core

namespace Instruction

variable {i : Instruction} {pipe : Pipeline} {x : ProductOp}

/-- An instruction with a product writes the accumulator that the product leads to. -/
theorem run_of_product? (h : i.product? pipe = some x) (pc : UInt32) (m : Machine) :
    (i.execute pc).run m =
      (setProduct pipe x.rd (x.next pipe m.core) >>= fun _ => pure (pc + 4)).run m := by
  cases i with
  | multiply signed p rd rs rt =>
    obtain ⟨rfl, hx⟩ := Option.ite_none_right_eq_some.1 h
    cases hx
    simp only [execute, run_ofCore_bind, run_ofChecked_bind (product_eq ..)]
    rfl
  | multiplyAdd signed p rd rs rt =>
    obtain ⟨rfl, hx⟩ := Option.ite_none_right_eq_some.1 h
    cases hx
    simp only [execute, run_ofCore_bind, run_ofChecked_bind (product_eq ..)]
    rfl
  | _ => cases h

/-- Of the instructions that are in a chain for a pipeline, only those with a product write its
multiply result. -/
def Chains (pipe : Pipeline) (i : Instruction) : Prop :=
  i.product? pipe = none → ∀ half, i.writesResult half pipe = false

end Instruction

/-! ## Chains -/

namespace Machine

/-- The products for a pipeline that instructions compute one after another. -/
def products (pipe : Pipeline) : List UInt32 → Machine → List Int
  | [], _ => []
  | word :: words, m =>
    (((Instruction.decode word).product? pipe).map (·.value m.core)).toList ++
      match m.interpretAll [word] with
      | .ok m' => products pipe words m'
      | .error _ => []

/-- No product among the instructions replaces the accumulator of the pipeline. -/
def AddsOnly (pipe : Pipeline) (words : List UInt32) : Prop :=
  ∀ word ∈ words, ∀ x, (Instruction.decode word).product? pipe = some x → x.adds = true

section Steps

variable {pipe : Pipeline} {word : UInt32} {words : List UInt32} {m m' m₁ : Machine}

/-- A word with a product is interpreted to the end. -/
theorem accumulated_of_product? {x : ProductOp}
    (h : (Instruction.decode word).product? pipe = some x) :
    ∃ m', m.interpretAll [word] = .ok m' ∧ Core.Accumulated pipe x m.core m'.core := by
  have hrun := Instruction.interpret_of_execute (Instruction.run_of_product? h m.core.pc m)
  refine ⟨_, by rw [interpretAll, hrun]; rfl, ?_⟩
  have hcore := m.core.accumulated_setResultWords (rfl : x.next pipe m.core = _)
  exact ⟨hcore.accumulator, hcore.result, hcore.destination, hcore.high⟩

/-- A word in a chain that has no product keeps the accumulator. -/
theorem accumulator_of_chains (hchain : (Instruction.decode word).Chains pipe)
    (h : (Instruction.decode word).product? pipe = none) (hrun : m.interpretAll [word] = .ok m') :
    m'.core.accumulator pipe = m.core.accumulator pipe := by
  obtain ⟨m₁, hrun₁, hword⟩ := interpretAll_word word m
  cases hrun.symm.trans hrun₁
  rcases hword with hdone | ⟨-, -, rfl⟩
  · have hwrites := Instruction.writes_of_interpret (Instruction.decode word) m _ _ hdone
    exact Core.accumulator_congr fun half => hwrites.core.result half pipe (hchain h half)
  · rfl

theorem products_cons (hrun : m.interpretAll [word] = .ok m₁) (words : List UInt32) :
    m.products pipe (word :: words) =
      (((Instruction.decode word).product? pipe).map (·.value m.core)).toList ++
        m₁.products pipe words := by
  rw [products, hrun]

theorem interpretAll_cons (hrun : m.interpretAll [word] = .ok m₁) (words : List UInt32) :
    m.interpretAll (word :: words) = m₁.interpretAll words := by
  rw [← List.singleton_append, interpretAll_append, hrun]
  rfl

/-- **A chain that replaces nothing adds up its products.** -/
theorem accumulator_of_addsOnly (hchain : ∀ word ∈ words, (Instruction.decode word).Chains pipe)
    (hadds : AddsOnly pipe words) (hrun : m.interpretAll words = .ok m') :
    m'.core.accumulator pipe =
      m.core.accumulator pipe + UInt64.ofInt (m.products pipe words).sum := by
  -- the machine varies: the rest of the chain starts from the one that its first word leaves
  induction words generalizing m with
  | nil =>
    cases hrun
    exact (UInt64.add_zero _).symm
  | cons word words ih =>
    obtain ⟨hword, hrest⟩ := List.forall_mem_cons.1 hchain
    obtain ⟨haddsWord, haddsRest⟩ := List.forall_mem_cons.1 hadds
    obtain ⟨m₁, hrun₁, -⟩ := interpretAll_word word m
    rw [interpretAll_cons hrun₁] at hrun
    rw [ih hrest haddsRest hrun, products_cons hrun₁]
    cases hx : (Instruction.decode word).product? pipe with
    | none => rw [accumulator_of_chains hword hx hrun₁]; rfl
    | some x =>
      obtain ⟨m₂, hrun₂, hacc⟩ := accumulated_of_product? (m := m) hx
      cases hrun₁.symm.trans hrun₂
      rw [hacc.accumulator, ProductOp.next, if_pos (haddsWord x hx), UInt64.add_assoc,
        ← UInt64.ofInt_add]
      rfl

end Steps

/-- **Multiply-accumulate chains compute exact sums modulo `2 ^ 64`.** Let words be interpreted one
after another of which only those with a product write the multiply result of a pipeline. Each of
these leaves its accumulator as the product of the numbers that the low words of its sources denote,
added to what the accumulator was if it is an accumulating one. It leaves both halves of the result
and, unless it is zero, its destination as sign-extended words, and keeps the high doubleword of the
destination. At the end, the accumulator is what it was at first, or the last product that was not
added, plus the sum of all products after that. -/
theorem interpretAll_accumulates (pipe : Pipeline) (words : List UInt32) (m : Machine)
    (hchain : ∀ word ∈ words, (Instruction.decode word).Chains pipe) :
    ∃ m', m.interpretAll words = .ok m' ∧
      (AddsOnly pipe words → m'.core.accumulator pipe =
        m.core.accumulator pipe + UInt64.ofInt (m.products pipe words).sum) ∧
      ∀ before word after x, words = before ++ word :: after →
        (Instruction.decode word).product? pipe = some x → ∃ m₁ m₂,
          m.interpretAll before = .ok m₁ ∧ m₁.interpretAll [word] = .ok m₂ ∧
            m₂.interpretAll after = .ok m' ∧ Core.Accumulated pipe x m₁.core m₂.core ∧
            (x.adds = false → AddsOnly pipe after → m'.core.accumulator pipe =
              UInt64.ofInt (x.value m₁.core + (m₂.products pipe after).sum)) := by
  obtain ⟨m', hrun⟩ := exists_interpretAll_eq_ok words m
  refine ⟨m', hrun, fun hadds => accumulator_of_addsOnly hchain hadds hrun, ?_⟩
  rintro before word after x rfl hx
  obtain ⟨m₁, hbefore⟩ := exists_interpretAll_eq_ok before m
  obtain ⟨m₂, hword, hacc⟩ := accumulated_of_product? (m := m₁) hx
  have hafter : m₂.interpretAll after = .ok m' := by
    rw [interpretAll_append, hbefore] at hrun
    exact (interpretAll_cons hword after).symm.trans hrun
  refine ⟨m₁, m₂, hbefore, hword, hafter, hacc, fun hstarts hadds => ?_⟩
  have hchain' : ∀ word ∈ after, (Instruction.decode word).Chains pipe := fun word hmem =>
    hchain word (List.mem_append_right _ (List.mem_cons_of_mem _ hmem))
  rw [accumulator_of_addsOnly hchain' hadds hafter, hacc.accumulator, ProductOp.next, hstarts,
    UInt64.ofInt_add]
  rfl

/-- A sum of two products, with a product of the other pipeline between them. -/
theorem interpretAll_accumulates_dot :
    (∀ word ∈ [0x00851018, 0x71091819, 0x70C71000], (Instruction.decode word).Chains .zero) ∧
      ∀ m, ∃ m' m₂, interpretAll [0x00851018, 0x71091819, 0x70C71000] m = .ok m' ∧
        interpretAll [0x00851018] m = .ok m₂ ∧ m'.core.accumulator .zero =
          UInt64.ofInt (wordValue true (m.core.word ⟨4⟩) * wordValue true (m.core.word ⟨5⟩) +
            (m₂.products .zero [0x71091819, 0x70C71000]).sum) := by
  have hchain : ∀ word ∈ [0x00851018, 0x71091819, 0x70C71000],
      (Instruction.decode word).Chains .zero :=
    List.forall_mem_cons.2 ⟨nofun, List.forall_mem_cons.2 ⟨fun _ half => by cases half <;> rfl,
      List.forall_mem_singleton.2 nofun⟩⟩
  have hadds : AddsOnly .zero [0x71091819, 0x70C71000] :=
    List.forall_mem_cons.2 ⟨nofun, List.forall_mem_singleton.2 fun x hx => by cases hx; rfl⟩
  refine ⟨hchain, fun m => ?_⟩
  obtain ⟨m', hrun, -, hproducts⟩ := interpretAll_accumulates .zero _ m hchain
  obtain ⟨m₁, m₂, hbefore, hword, -, -, hsum⟩ := hproducts [] 0x00851018 _ _ rfl rfl
  cases hbefore
  exact ⟨m', m₂, hrun, hword, hsum rfl hadds⟩

end Machine

end R5900
