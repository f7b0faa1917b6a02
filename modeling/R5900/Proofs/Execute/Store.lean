import R5900.Proofs.Bus.Intc
import R5900.Proofs.Execute.Delivery

/-!
# What stores do to the interrupt controller

An instruction makes one write at most. `Instruction.write?` is that write; a partial store writes
the whole word or doubleword, with the part that it keeps read before. `Machine.Stores` says that a
step makes a write.

* `Instruction.intc_of_execute`: an instruction changes the interrupt controller only by the words
  of its write that reach it.
* `Machine.intc_of_step`: so does a step, and a step that makes no write leaves the controller as it
  is. It follows that only an acknowledgement clears a status bit
  (`Machine.acknowledges_of_cleared`).
-/

namespace R5900

open Exec

/-- The value that a read gives; zero if it does not answer. -/
def Machine.peek (w : Width) (a : UInt32) (m : Machine) : w.Value :=
  match (Machine.read w a).run m with
  | .done value _ => value
  | _ => w.zero

/-- The write that a partial store makes. -/
def PartStoreOp.write (op : PartStoreOp) (rt : Gpr) (a : UInt32) (m : Machine) : MemoryWrite :=
  match op with
  | .swl => ⟨.word, a &&& ~~~3, placeBelow32 (m.peek .word (a &&& ~~~3)) (m.core.word rt)
      (24 - 8 * (a &&& 3))⟩
  | .swr => ⟨.word, a &&& ~~~3, placeAbove32 (m.peek .word (a &&& ~~~3)) (m.core.word rt)
      (8 * (a &&& 3))⟩
  | .sdl => ⟨.double, a &&& ~~~7, placeBelow64 (m.peek .double (a &&& ~~~7)) (m.core.double rt)
      (56 - 8 * (a &&& 7).toUInt64)⟩
  | .sdr => ⟨.double, a &&& ~~~7, placeAbove64 (m.peek .double (a &&& ~~~7)) (m.core.double rt)
      (8 * (a &&& 7).toUInt64)⟩

/-- The write that an instruction makes if it raises nothing. -/
def Instruction.write? (i : Instruction) (m : Machine) : Option MemoryWrite :=
  match i with
  | .store op rt offset base =>
    some ⟨op.width, m.core.addressOf base offset, op.width.ofQuad (m.core.quad rt)⟩
  | .storePart op rt offset base => some (op.write rt (m.core.addressOf base offset) m)
  | .storeFloat ft offset base =>
    some ⟨.word, m.core.addressOf base offset, m.core.float.get ft⟩
  | _ => none

namespace Machine

/-- The words that reach the interrupt controller, if there is a write at all. -/
def intcWrites? (m : Machine) (write : Option MemoryWrite) : List (UInt32 × UInt32) :=
  write.elim [] m.intcWrites

/-- A read ensures what holds of the value that it gives, on every machine with the same core, the
same interrupt controller and the same map. -/
theorem ensures_read_intc {w : Width} {a : UInt32} {m : Machine} {post : w.Value → Machine → Prop}
    (h : ∀ m', m'.core = m.core → m'.intc = m.intc → m'.bus.map = m.bus.map →
      post (m.peek w a) m') : Ensures (Machine.read w a) m post := by
  intro value m' hrun
  obtain ⟨hcore, hintc, hmap⟩ := intc_of_read hrun
  have hpeek : m.peek w a = value := by rw [peek, hrun]
  rw [← hpeek]
  exact h m' hcore hintc hmap

end Machine

namespace Instruction

/-- An aligned store changes the interrupt controller by the words of its write. -/
theorem intc_of_storeAligned {w : Width} {base : Gpr} {offset : UInt16} {value : w.Value}
    {m : Machine} : (storeAligned w base offset value).Ensures m fun _ m' =>
      m'.intc = m.intc.writeWords (m.intcWrites ⟨w, m.core.addressOf base offset, value⟩) := by
  simp only [storeAligned, effectiveAddress, ensures_bind, ensures_ofCore, ensures_ite,
    ensures_raise, implies_true, and_true, ← Core.addressOf_eq]
  exact fun _ _ _ hrun => Machine.intc_of_write hrun

/-- Reading a value and writing one computed from it changes the interrupt controller by the words
of the write. -/
theorem intc_of_modify {α : Type} (w : Width) (a : UInt32) (f : Core → α)
    (g : w.Value → α → w.Value) (m : Machine) :
    Ensures (do
        let memory ← Machine.read w a
        let value ← ofCore f
        Machine.write w a (g memory value)) m fun _ m' =>
      m'.intc = m.intc.writeWords (m.intcWrites ⟨w, a, g (m.peek w a) (f m.core)⟩) := by
  simp only [ensures_bind, ensures_ofCore]
  refine Machine.ensures_read_intc fun m₁ hcore hintc hmap => ?_
  rw [hcore, ← hintc, ← Machine.intcWrites_of_map_eq hmap]
  exact fun _ _ hrun => Machine.intc_of_write hrun

/-- An instruction changes the interrupt controller only by the words of its write. -/
theorem intc_of_execute (i : Instruction) (pc : UInt32) (m : Machine) :
    (i.execute pc).Ensures m fun _ m' =>
      m'.intc = m.intc.writeWords (m.intcWrites? (i.write? m)) := by
  cases i with
  | store op rt offset base =>
    simp only [execute, ensures_bind, ensures_ofCore, ensures_pure]
    exact intc_of_storeAligned
  | storeFloat ft offset base =>
    simp only [execute, ensures_bind, ensures_ofCore, ensures_pure]
    exact intc_of_storeAligned
  | storePart op rt offset base =>
    simp only [execute, effectiveAddress, ensures_bind, ensures_ofCore, ensures_pure,
      ← Core.addressOf_eq]
    cases op with
    | swl => exact intc_of_modify .word _ _ _ m
    | swr => exact intc_of_modify .word _ _ _ m
    | sdl => exact intc_of_modify .double _ _ _ m
    | sdr => exact intc_of_modify .double _ _ _ m
  | load op rt offset base =>
    simp only [execute, loadAligned, effectiveAddress, ensures_bind, ensures_ofCore, ensures_ite,
      ensures_raise, ensures_onCore, ensures_pure, implies_true, and_true]
    exact fun _ => Machine.ensures_read_intc fun _ _ hintc _ => hintc
  | loadFloat ft offset base =>
    simp only [execute, loadAligned, effectiveAddress, ensures_bind, ensures_ofCore, ensures_ite,
      ensures_raise, ensures_onCore, ensures_pure, implies_true, and_true]
    exact fun _ => Machine.ensures_read_intc fun _ _ hintc _ => hintc
  | loadPart op rt offset base =>
    simp only [execute, effectiveAddress, ensures_bind, ensures_ofCore, ensures_pure]
    cases op <;> simp only [Exec.loadPart, ensures_bind, ensures_onCore] <;>
      exact Machine.ensures_read_intc fun _ _ hintc _ => hintc
  -- every other instruction leaves the bus alone
  | _ => simp [execute, setChecked, setProduct, branch, trapIf, write?, Machine.intc,
      Machine.intcWrites?, Intc.writeWords]

end Instruction

/-! ## Steps -/

namespace Machine

/-- The step makes the write: the instruction at the program counter is a store, and it raises
nothing. -/
def Stores (m : Machine) (write : MemoryWrite) : Prop :=
  (∀ e, ¬m.Refuses e) ∧ ∃ word m₁, (Machine.read .word m.core.pc).run m = .done word m₁ ∧
    (Instruction.decode word).write? m₁ = some write

/-- What a read gives depends on the scratchpad and the bus only. -/
theorem peek_congr {m m' : Machine} (hcore : m'.core.scratchpad = m.core.scratchpad)
    (hbus : m'.bus = m.bus) (w : Width) (a : UInt32) : m'.peek w a = m.peek w a := by
  obtain ⟨core, bus, journal⟩ := m
  obtain ⟨core', bus', journal'⟩ := m'
  have hscratchpad : core'.scratchpad = core.scratchpad := hcore
  have hbus' : bus' = bus := hbus
  simp only [peek, run, Machine.read, hscratchpad, hbus']
  cases Location.ofVirtual a with
  | scratchpad offset =>
    dsimp only
    cases core.scratchpad.load w offset <;> rfl
  | bus address =>
    dsimp only
    cases bus.read w address <;> rfl

/-- The write of an instruction depends on the registers, the scratchpad and the bus only. -/
theorem write?_congr {m m' : Machine} (hregisters : m'.core.registers = m.core.registers)
    (hfloat : m'.core.float = m.core.float) (hscratchpad : m'.core.scratchpad = m.core.scratchpad)
    (hbus : m'.bus = m.bus) (i : Instruction) : i.write? m' = i.write? m := by
  have hquad : ∀ r, m'.core.quad r = m.core.quad r := by
    intro r
    rw [Core.quad, hregisters]
    rfl
  have hpeek := peek_congr hscratchpad hbus
  have hwrite : ∀ (op : PartStoreOp) rt a, op.write rt a m' = op.write rt a m := by
    intro op rt a
    cases op <;> simp only [PartStoreOp.write, Core.word, Core.double, hquad, hpeek]
  cases i <;>
    simp only [Instruction.write?, Core.addressOf, Core.word, Core.double, hquad, hfloat, hwrite]

theorem write?_fetched (i : Instruction) {m m₁ : Machine} (hcore : m₁.core = m.core) (word : UInt32)
    (journal : Journal) :
    i.write? ⟨fetchedCore m.entering.core m.core.isBranching word, m₁.bus, journal⟩ =
      i.write? m₁ := by
  obtain ⟨core, bus, journal'⟩ := m₁
  have hcore' : core = m.core := hcore
  subst hcore'
  apply write?_congr
  case hbus => rfl
  all_goals
    unfold entering fetchedCore
    cases m.core.isBranching <;> rfl

/-- A step changes the interrupt controller only by the words of its write. -/
theorem intc_of_step {m m' : Machine} (h : m.step = .ok m') :
    m'.intc = m.intc ∨
      ∃ write, m.Stores write ∧ m'.intc = m.intc.writeWords (m.intcWrites write) := by
  rcases step_cases h with ⟨e, m₁, -, hfetches, rfl⟩ | ⟨word, m₁, next, m₂, hexecutes, rfl⟩
  · refine .inl ?_
    show (m₁.delivered e m.core.pc m.core.isBranching).finished.bus.devices.intc = m.intc
    rw [bus_finished]
    rcases hfetches.bus with hbus | ⟨word, m₂, -, hread, hbus⟩
    · exact congrArg (·.devices.intc) hbus
    · exact (congrArg (·.devices.intc) hbus).trans (intc_of_read hread).2.1
  · obtain ⟨hcore, hintc, hmap⟩ := intc_of_read hexecutes.read
    obtain ⟨journal, hrun⟩ := hexecutes.executed
    have hm₂ := Instruction.intc_of_execute _ _ _ _ _ hrun
    rw [write?_fetched _ hcore] at hm₂
    have hend : (m.moved { m₂ with core.pc := next }).finished.intc = m₂.intc := by
      show (m.moved { m₂ with core.pc := next }).finished.bus.devices.intc = _
      rw [bus_finished, bus_moved]
      rfl
    rw [hend, hm₂]
    cases hwrite : (Instruction.decode word).write? m₁ with
    | none => exact .inl hintc
    | some write =>
      refine .inr ⟨write, ⟨hexecutes.quiet, word, m₁, hexecutes.read, hwrite⟩, ?_⟩
      rw [← intcWrites_of_map_eq hmap, ← hintc]
      rfl

/-- The step acknowledges the status bit `p`: of the write that it makes, a word with this bit set
reaches the status register. -/
def Acknowledges (m : Machine) (p : UInt32) : Prop :=
  ∃ write value, m.Stores write ∧ (Intc.statusAddress, value) ∈ m.intcWrites write ∧
    testBit32 value p = true

/-- Only an acknowledgement clears a status bit. -/
theorem acknowledges_of_cleared {m m' : Machine} (h : m.step = .ok m') {p : UInt32}
    (hset : testBit32 m.intc.status p = true) (hclear : testBit32 m'.intc.status p = false) :
    m.Acknowledges p := by
  rcases intc_of_step h with heq | ⟨write, hstores, heq⟩
  · rw [heq, hset] at hclear
    cases hclear
  · rw [heq] at hclear
    obtain ⟨value, hmem, hbit⟩ := Intc.exists_of_status_cleared hset hclear
    exact ⟨write, value, hstores, hmem, hbit⟩

end Machine

end R5900
