import R5900.Proofs.Execute.Instruction
import R5900.Proofs.Register

/-!
# The two multiply pipelines

The instructions that multiply, divide and move the multiply result come in pairs, one for each
pipeline. What one of them does depends only on the general registers that it names and on the
doublewords of its pipeline, and not on which of the pipelines this is
(`PipelineOp.exists_effect`). All else about the pipelines follows from this one case analysis.

* `PipelineOp.run_on_one`: an instruction of the second pipeline is that of the first one between
  two exchanges of the doublewords of the multiply result.
* `PipelineOp.commutes_on`: instructions of the two pipelines that share no register but zero
  commute.
* `Machine.interpretEach_interleaves`: instructions that commute may be interleaved in any way.
-/

namespace R5900

open Exec

/-! ## Exchanging the pipelines -/

/-- Exchange the doublewords of a quadword. -/
def Quad.exchange (q : Quad) : Quad := ⟨q.hi, q.lo⟩

/-- Exchange the doublewords of both halves of the multiply result. -/
def Core.exchange (c : Core) : Core := { c with hi := c.hi.exchange, lo := c.lo.exchange }

/-! ## Instructions of a pipeline -/

/-- What an instruction does with the multiply result of a pipeline, whichever this is. -/
inductive PipelineOp where
  | multiply (signed : Bool) (rd rs rt : Gpr)
  | multiplyAdd (signed : Bool) (rd rs rt : Gpr)
  | divide (signed : Bool) (rs rt : Gpr)
  | moveFrom (half : ResultHalf) (rd : Gpr)
  | moveTo (half : ResultHalf) (rs : Gpr)

namespace PipelineOp

/-- The instruction for the given pipeline. -/
def on (op : PipelineOp) (pipe : Pipeline) : Instruction :=
  match op with
  | .multiply signed rd rs rt => .multiply signed pipe rd rs rt
  | .multiplyAdd signed rd rs rt => .multiplyAdd signed pipe rd rs rt
  | .divide signed rs rt => .divide signed pipe rs rt
  | .moveFrom half rd => .moveFromResult half pipe rd
  | .moveTo half rs => .moveToResult half pipe rs

/-- The general registers that the instruction names. -/
def registers : PipelineOp → List Gpr
  | .multiply _ rd rs rt | .multiplyAdd _ rd rs rt => [rd, rs, rt]
  | .divide _ rs rt => [rs, rt]
  | .moveFrom _ rd => [rd]
  | .moveTo _ rs => [rs]

/-- Two instructions name no register in common but zero. -/
def Separate (op op' : PipelineOp) : Prop :=
  ∀ r, r ∈ op.registers → r ∈ op'.registers → r = .zero

/-- What an instruction of a pipeline writes: the doublewords of its pipeline in the multiply
result, and the low doubleword of a register, which is zero if there is no destination. -/
structure Effect where
  hi : UInt64
  lo : UInt64
  rd : Gpr
  value : UInt64

/-- Both words of a doubleword as the multiply result, and the low one in a register. -/
def Effect.ofProduct (rd : Gpr) (v : UInt64) : Effect :=
  ⟨signExtend32 (v >>> (32 : UInt64)).toUInt32, signExtend32 v.toUInt32, rd,
    signExtend32 v.toUInt32⟩

end PipelineOp

/-- The core after an instruction of a pipeline that has the given effect. -/
def Core.complete (c : Core) (pipe : Pipeline) (e : PipelineOp.Effect) : Core :=
  { c with
    pc := c.pc + 4
    registers := (c.setDouble e.rd e.value).registers
    hi := pipe.replace c.hi e.hi
    lo := pipe.replace c.lo e.lo }

namespace Core

variable (c : Core)

theorem registers_exchange : c.exchange.registers = c.registers := rfl

theorem registers_complete (pipe : Pipeline) (e : PipelineOp.Effect) :
    (c.complete pipe e).registers = (c.setDouble e.rd e.value).registers := rfl

/-- To complete an instruction of the second pipeline is to complete one of the first pipeline
between two exchanges. -/
theorem exchange_complete (e : PipelineOp.Effect) :
    (c.exchange.complete .zero e).exchange = c.complete .one e := by
  have hregisters : (c.exchange.setDouble e.rd e.value).registers =
      (c.setDouble e.rd e.value).registers :=
    registers_setDouble_congr e.rd c.registers_exchange e.value
  rw [complete, hregisters]
  rfl

theorem complete_complete (p p' : Pipeline) (e e' : PipelineOp.Effect) :
    (c.complete p e).complete p' e' = { c with
      pc := c.pc + 4 + 4
      registers := ((c.setDouble e.rd e.value).setDouble e'.rd e'.value).registers
      hi := p'.replace (p.replace c.hi e.hi) e'.hi
      lo := p'.replace (p.replace c.lo e.lo) e'.lo } := by
  have hregisters : ((c.complete p e).setDouble e'.rd e'.value).registers =
      ((c.setDouble e.rd e.value).setDouble e'.rd e'.value).registers :=
    registers_setDouble_congr e'.rd (c.registers_complete p e) e'.value
  rw [complete, hregisters]
  rfl

/-- Effects on the two pipelines that write no register in common but zero commute. -/
theorem complete_comm {p p' : Pipeline} (hp : p ≠ p') {e e' : PipelineOp.Effect}
    (hrd : e.rd = e'.rd → e.rd = .zero) :
    (c.complete p e).complete p' e' = (c.complete p' e').complete p e := by
  rw [complete_complete, complete_complete, setDouble_comm c hrd, Pipeline.replace_comm hp,
    Pipeline.replace_comm hp]

end Core

/-- An instruction has an effect if executing it writes the doublewords of its pipeline, then the
register. -/
theorem Instruction.interpret_of_effect {i : Instruction} {pipe : Pipeline} {e : PipelineOp.Effect}
    {m : Machine} {c : Core}
    (hc : { m.core with
      hi := pipe.replace m.core.hi e.hi
      lo := pipe.replace m.core.lo e.lo } = c)
    (h : (i.execute m.core.pc).run m =
      .done (m.core.pc + 4) { m with core := c.setDouble e.rd e.value }) :
    i.interpret.run m = .done () { m with core := m.core.complete pipe e } := by
  have hregisters : c.registers = m.core.registers := by rw [← hc]
  rw [interpret_of_execute h, Core.setDouble_eq_of_registers e.rd hregisters, ← hc]
  rfl

namespace PipelineOp

/-- An instruction sees the same in the core `c` with the pipeline `p` as in `c'` with `p'`. -/
structure SeesSame (op : PipelineOp) (p : Pipeline) (c : Core) (p' : Pipeline) (c' : Core) :
    Prop where
  double : ∀ r ∈ op.registers, c'.double r = c.double r
  hi : p'.part c'.hi = p.part c.hi
  lo : p'.part c'.lo = p.part c.lo

section Effects

variable {op : PipelineOp} {p p' : Pipeline} {c c' : Core}

theorem SeesSame.refl (op : PipelineOp) (p : Pipeline) (c : Core) : op.SeesSame p c p c :=
  ⟨fun _ _ => rfl, rfl, rfl⟩

theorem SeesSame.word (h : op.SeesSame p c p' c') {r : Gpr}
    (hr : r ∈ op.registers) : c'.word r = c.word r :=
  congrArg UInt64.toUInt32 (h.double r hr)

theorem SeesSame.result (h : op.SeesSame p c p' c')
    (half : ResultHalf) : p'.part (c'.result half) = p.part (c.result half) := by
  cases half with
  | hi => exact h.hi
  | lo => exact h.lo

theorem SeesSame.accumulator (h : op.SeesSame p c p' c') :
    c'.accumulator p' = c.accumulator p := by
  rw [Core.accumulator, Core.accumulator, h.hi, h.lo]

end Effects

/-- **An instruction of a pipeline has one effect on all cores in which it sees the same**: it then
does the same to either pipeline. -/
theorem exists_effect (op : PipelineOp) (p : Pipeline) (c : Core) :
    ∃ e : Effect, (e.rd ∈ op.registers ∨ e.rd = .zero) ∧
      ∀ pipe (m : Machine), op.SeesSame p c pipe m.core →
        (op.on pipe).interpret.run m = .done () { m with core := m.core.complete pipe e } := by
  -- the effect is what the operands in `c` lead to; `SeesSame` carries it over to any other core
  cases op with
  | multiply signed rd rs rt =>
    obtain ⟨v, hv⟩ := product_eq_ok signed (c.word rs) (c.word rt)
    refine ⟨.ofProduct rd v, .inl List.mem_cons_self, fun pipe m h => ?_⟩
    rw [← h.word (r := rs) (by simp [registers]), ← h.word (r := rt) (by simp [registers])] at hv
    refine Instruction.interpret_of_effect rfl ?_
    simp only [on, Instruction.execute, run_ofCore_bind, run_ofChecked_bind hv]
    rfl
  | multiplyAdd signed rd rs rt =>
    obtain ⟨v, hv⟩ := product_eq_ok signed (c.word rs) (c.word rt)
    refine ⟨.ofProduct rd (c.accumulator p + v), .inl List.mem_cons_self, fun pipe m h => ?_⟩
    rw [← h.word (r := rs) (by simp [registers]), ← h.word (r := rt) (by simp [registers])] at hv
    refine Instruction.interpret_of_effect rfl ?_
    simp only [on, Instruction.execute, run_ofCore_bind, run_ofChecked_bind hv, h.accumulator]
    rfl
  | divide signed rs rt =>
    obtain ⟨⟨q, r⟩, hv⟩ := quotient_eq_ok signed (c.word rs) (c.word rt)
    refine ⟨⟨signExtend32 r, signExtend32 q, .zero, 0⟩, .inr rfl, fun pipe m h => ?_⟩
    rw [← h.word (r := rs) (by simp [registers]), ← h.word (r := rt) (by simp [registers])] at hv
    refine Instruction.interpret_of_effect rfl ?_
    simp only [on, Instruction.execute, run_ofCore_bind, run_ofChecked_bind hv, Core.setDouble_zero]
    rfl
  | moveFrom half rd =>
    refine ⟨⟨p.part c.hi, p.part c.lo, rd, p.part (c.result half)⟩, .inl List.mem_cons_self,
      fun pipe m h => ?_⟩
    refine Instruction.interpret_of_effect (c := m.core) ?_ ?_
    · rw [← h.hi, ← h.lo, pipe.replace_part, pipe.replace_part]
    · rw [← h.result half]
      rfl
  | moveTo half rs =>
    have hrs : rs ∈ (moveTo half rs).registers := List.mem_cons_self
    cases half with
    | hi =>
      refine ⟨⟨c.double rs, p.part c.lo, .zero, 0⟩, .inr rfl, fun pipe m h => ?_⟩
      refine Instruction.interpret_of_effect rfl ?_
      rw [← h.double rs hrs, ← h.lo, pipe.replace_part, Core.setDouble_zero]
      rfl
    | lo =>
      refine ⟨⟨p.part c.hi, c.double rs, .zero, 0⟩, .inr rfl, fun pipe m h => ?_⟩
      refine Instruction.interpret_of_effect rfl ?_
      rw [← h.double rs hrs, ← h.hi, pipe.replace_part, Core.setDouble_zero]
      rfl

/-! ## Mirror images -/

/-- **The pipelines are mirror images.** An instruction of the second pipeline is that of the first
one between two exchanges of the doublewords of the multiply result. -/
theorem run_on_one (op : PipelineOp) (m : Machine) :
    (op.on .one).interpret.run m = (do
      onCore Core.exchange
      (op.on .zero).interpret
      onCore Core.exchange).run m := by
  obtain ⟨e, -, he⟩ := op.exists_effect .one m.core
  have hsame : op.SeesSame .one m.core .zero m.core.exchange :=
    ⟨fun r _ => Core.double_congr r m.core.registers_exchange, rfl, rfl⟩
  have hzero := he .zero { m with core := m.core.exchange } hsame
  rw [he .one m (.refl op .one m.core), run_onCore_bind, run_bind_done hzero,
    ← m.core.exchange_complete e]
  rfl

end PipelineOp

/-! ## Interleavings -/

/-- The third list holds the members of the first two, those of each in their order. -/
inductive Interleaves {α : Type} : List α → List α → List α → Prop
  | nil : Interleaves [] [] []
  | left {a : α} {as bs cs : List α} (h : Interleaves as bs cs) : Interleaves (a :: as) bs (a :: cs)
  | right {b : α} {as bs cs : List α} (h : Interleaves as bs cs) :
    Interleaves as (b :: bs) (b :: cs)

/-- Interpreting two instructions in either order is the same action. -/
def Instruction.Commutes (i j : Instruction) : Prop :=
  (do i.interpret; j.interpret : Exec Unit) = (do j.interpret; i.interpret)

namespace Machine

/-- Interpret instructions one after another, up to the first that raises an exception. -/
def interpretEach : List Instruction → Exec Unit
  | [] => pure ()
  | i :: is => do
    i.interpret
    interpretEach is

/-- Instructions that are done on every machine are done one after another. -/
theorem exists_interpretEach_eq_done {is : List Instruction}
    (h : ∀ i ∈ is, ∀ m, ∃ m', i.interpret.run m = .done () m') (m : Machine) :
    ∃ m', (interpretEach is).run m = .done () m' := by
  induction is generalizing m with
  | nil => exact ⟨m, rfl⟩
  | cons i is ih =>
    obtain ⟨m₁, hdone⟩ := h i List.mem_cons_self m
    obtain ⟨m', hrest⟩ := ih (fun j hj => h j (List.mem_cons_of_mem i hj)) m₁
    exact ⟨m', (run_bind_done hdone).trans hrest⟩

/-- An instruction moves in front of those that commute with it. -/
theorem interpretEach_append_cons {is : List Instruction} {j : Instruction}
    (h : ∀ i ∈ is, i.Commutes j) (js : List Instruction) :
    interpretEach (is ++ j :: js) = interpretEach (j :: (is ++ js)) := by
  induction is with
  | nil => rfl
  | cons i is ih =>
    have hcomm : (i.interpret >>= fun _ => j.interpret) = (j.interpret >>= fun _ => i.interpret) :=
      h i List.mem_cons_self
    calc interpretEach (i :: (is ++ j :: js))
      _ = i.interpret >>= fun _ => interpretEach (is ++ j :: js) := rfl
      _ = i.interpret >>= fun _ => j.interpret >>= fun _ => interpretEach (is ++ js) := by
        rw [ih fun i hi => h i (List.mem_cons_of_mem _ hi)]
        rfl
      _ = j.interpret >>= fun _ => i.interpret >>= fun _ => interpretEach (is ++ js) := by
        rw [← bind_bind, hcomm, bind_bind]

/-- **Instructions that commute may be interleaved in any way.** -/
theorem interpretEach_interleaves {is js ks : List Instruction} (h : Interleaves is js ks)
    (hcomm : ∀ i ∈ is, ∀ j ∈ js, i.Commutes j) : interpretEach ks = interpretEach (is ++ js) := by
  induction h with
  | nil => rfl
  | @left i is js ks _ ih =>
    have hrest := ih fun i hi => hcomm i (List.mem_cons_of_mem _ hi)
    exact congrArg (fun x => i.interpret >>= fun _ => x) hrest
  | @right j is js ks _ ih =>
    rw [interpretEach_append_cons fun i hi => hcomm i hi j List.mem_cons_self]
    have hrest := ih fun i hi j hj => hcomm i hi j (List.mem_cons_of_mem _ hj)
    exact congrArg (fun x => j.interpret >>= fun _ => x) hrest

end Machine

/-! ## Independence -/

namespace PipelineOp

section Independence

variable {op op' : PipelineOp} {p p' : Pipeline}

/-- An instruction of a pipeline is done and keeps the other pipeline's doublewords. -/
theorem run_keeps (op : PipelineOp) (pipe : Pipeline) (m : Machine) :
    ∃ m', (op.on pipe).interpret.run m = .done () m' ∧ ∀ half, ∀ p ≠ pipe,
      p.part (m'.core.result half) = p.part (m.core.result half) := by
  obtain ⟨e, -, he⟩ := op.exists_effect pipe m.core
  refine ⟨_, he pipe m (.refl op pipe m.core), fun half p hp => ?_⟩
  cases half with
  | hi => exact Pipeline.part_replace_of_ne hp m.core.hi e.hi
  | lo => exact Pipeline.part_replace_of_ne hp m.core.lo e.lo

/-- After an instruction of one pipeline, a separate instruction of the other one sees the same. -/
theorem SeesSame.complete (hp : p' ≠ p) (h : op.Separate op') {e : Effect}
    (he : e.rd ∈ op.registers ∨ e.rd = .zero) (c : Core) :
    op'.SeesSame p' c p' (c.complete p e) := by
  refine ⟨fun r hr => ?_, Pipeline.part_replace_of_ne hp c.hi e.hi,
    Pipeline.part_replace_of_ne hp c.lo e.lo⟩
  rw [Core.double_congr r (c.registers_complete p e)]
  by_cases hrd : e.rd = r
  · have hzero : e.rd = .zero := he.elim (fun hmem => h _ hmem (hrd ▸ hr)) id
    rw [hzero, Core.setDouble_zero]
  · exact c.double_setDouble_of_ne hrd e.value

/-- **Separate instructions of the two pipelines commute.** -/
theorem commutes_on (hp : p ≠ p') (h : op.Separate op') : (op.on p).Commutes (op'.on p') := by
  funext m
  show ((op.on p).interpret >>= fun _ => (op'.on p').interpret).run m =
    ((op'.on p').interpret >>= fun _ => (op.on p).interpret).run m
  obtain ⟨e, hrd, he⟩ := op.exists_effect p m.core
  obtain ⟨e', hrd', he'⟩ := op'.exists_effect p' m.core
  have hsame : op.SeesSame p m.core p (m.core.complete p' e') :=
    .complete hp (fun r hr hr' => h r hr' hr) hrd' m.core
  rw [run_bind_done (he p m (.refl op p m.core)), run_bind_done (he' p' m (.refl op' p' m.core)),
    he' p' { m with core := m.core.complete p e } (.complete hp.symm h hrd m.core),
    he p { m with core := m.core.complete p' e' } hsame, m.core.complete_comm hp ?_]
  intro hsame
  rcases hrd with hmem | hzero
  · rcases hrd' with hmem' | hzero'
    · exact h _ hmem (hsame ▸ hmem')
    · exact hsame.trans hzero'
  · exact hzero

end Independence

/-- **The two pipelines are mirror images and do not interfere.** An instruction of the second
pipeline does to the whole machine what that of the first one does between two exchanges of the
doublewords of the multiply result. No instruction of a pipeline changes the doublewords of the
other one. A sequence of instructions for the first pipeline and one for the second whose
instructions share no register but zero leave the same machine, and so the same multiply result,
interleaved in any way as run one after the other. -/
theorem pipelines_independent :
    (∀ (op : PipelineOp) m, (op.on .one).interpret.run m = (do
      onCore Core.exchange
      (op.on .zero).interpret
      onCore Core.exchange).run m) ∧
    (∀ (op : PipelineOp) pipe m, ∃ m', (op.on pipe).interpret.run m = .done () m' ∧
      ∀ half, ∀ p ≠ pipe, p.part (m'.core.result half) = p.part (m.core.result half)) ∧
    ∀ (xs ys : List PipelineOp) zs, Interleaves (xs.map (·.on .zero)) (ys.map (·.on .one)) zs →
      (∀ x ∈ xs, ∀ y ∈ ys, x.Separate y) → ∀ m, ∃ m',
        (Machine.interpretEach zs).run m = .done () m' ∧
          (Machine.interpretEach (xs.map (·.on .zero) ++ ys.map (·.on .one))).run m =
            .done () m' := by
  refine ⟨run_on_one, run_keeps, fun xs ys zs hzs hseparate m => ?_⟩
  have hcomm : ∀ i ∈ xs.map (·.on .zero), ∀ j ∈ ys.map (·.on .one), i.Commutes j := by
    intro i hi j hj
    obtain ⟨x, hx, rfl⟩ := List.mem_map.1 hi
    obtain ⟨y, hy, rfl⟩ := List.mem_map.1 hj
    exact commutes_on nofun (hseparate x hx y hy)
  have hdone : ∀ i ∈ xs.map (·.on .zero) ++ ys.map (·.on .one), ∀ m, ∃ m',
      i.interpret.run m = .done () m' := by
    intro i hi m
    rcases List.mem_append.1 hi with hi | hi
    · obtain ⟨x, -, rfl⟩ := List.mem_map.1 hi
      exact (run_keeps x .zero m).imp fun _ h => h.1
    · obtain ⟨y, -, rfl⟩ := List.mem_map.1 hi
      exact (run_keeps y .one m).imp fun _ h => h.1
  obtain ⟨m', hrun⟩ := Machine.exists_interpretEach_eq_done hdone m
  exact ⟨m', by rw [Machine.interpretEach_interleaves hzs hcomm, hrun], hrun⟩

/-- Two products, one on each pipeline, each moved to a register after both are computed. -/
theorem pipelines_independent_products :
    let xs : List PipelineOp := [.multiply true ⟨2⟩ ⟨4⟩ ⟨5⟩, .moveFrom .lo ⟨3⟩]
    let ys : List PipelineOp := [.multiply false ⟨6⟩ ⟨8⟩ ⟨9⟩, .moveFrom .hi ⟨7⟩]
    let zs : List Instruction := [.multiply true .zero ⟨2⟩ ⟨4⟩ ⟨5⟩,
      .multiply false .one ⟨6⟩ ⟨8⟩ ⟨9⟩, .moveFromResult .lo .zero ⟨3⟩, .moveFromResult .hi .one ⟨7⟩]
    Interleaves (xs.map (·.on .zero)) (ys.map (·.on .one)) zs ∧
      (∀ x ∈ xs, ∀ y ∈ ys, x.Separate y) ∧ ∀ m, ∃ m',
        (Machine.interpretEach zs).run m = .done () m' ∧
          (Machine.interpretEach (xs.map (·.on .zero) ++ ys.map (·.on .one))).run m =
            .done () m' := by
  intro xs ys zs
  have hzs : Interleaves (xs.map (·.on .zero)) (ys.map (·.on .one)) zs :=
    .left (.right (.left (.right .nil)))
  have hseparate : ∀ x ∈ xs, ∀ y ∈ ys, x.Separate y := by
    simp [xs, ys, Separate, registers]
  exact ⟨hzs, hseparate, pipelines_independent.2.2 xs ys zs hzs hseparate⟩

end PipelineOp

end R5900
