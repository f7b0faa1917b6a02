import R5900.Proofs.Execute.Store
import R5900.Proofs.VirtualMemory

/-!
# What one instruction may write

What an instruction may write in the core is its footprint there (`Core.WrittenBy`). In memory, it
is the bytes that its write covers, if it is a store (`Instruction.write?`).

* `Machine.bytes_of_write`: a virtual write changes no other cells than those that it covers.
* `Instruction.interpret_writes`: every decoded word is done or raises an exception, and stays
  within its write set.
-/

namespace R5900

open Exec

/-! ## Cells -/

/-- The write covers the cell: its address names a cell of the same memory, and the cell is among
those that the width of the write takes from there up. -/
def MemoryWrite.Covers (b : Bus) (x : MemoryWrite) (cell : Cell) : Prop :=
  ∃ first, b.cellAt? x.address = some first ∧ cell.store = first.store ∧
    first.offset ≤ cell.offset ∧ cell.offset < first.offset + x.width.bytes

namespace Machine

variable {m m' : Machine} {w : Width} {a : UInt32} {cell : Cell}

/-- What cells hold depends on the scratchpad and the memories on the bus. -/
theorem byteAt_congr {devices : Bank} (hscratchpad : m'.core.scratchpad = m.core.scratchpad)
    (hbus : m'.bus = { m.bus with devices }) (cell : Cell) : m'.byteAt cell = m.byteAt cell := by
  unfold byteAt
  rw [hscratchpad, hbus]

/-- A read ensures what holds of every value, with the core and the memories as they were. -/
theorem ensures_read_devices {post : w.Value → Machine → Prop}
    (h : ∀ value devices journal, post value ⟨m.core, { m.bus with devices }, journal⟩) :
    Ensures (Machine.read w a) m post := by
  intro value m' hrun
  obtain ⟨core, bus, journal⟩ := m
  simp only [run, Machine.read] at hrun
  split at hrun
  · split at hrun <;> cases hrun
    exact h value bus.devices _
  · split at hrun
    · rename_i r hr
      cases hrun
      rcases Bus.exists_of_read hr with hbus | ⟨unit, r', -, -, hbus⟩ <;> rw [hbus]
      · exact h r.value bus.devices _
      · exact h r.value r'.device _
    · cases hrun

/-- Digits that are put from the first cell that a write covers up change only cells that it
covers. -/
theorem Puts.covers {x : MemoryWrite} {first : Cell} {n : Nat}
    (h : m.Puts m' first x.width.bytes n) (hfirst : m.bus.cellAt? x.address = some first)
    (hboot : first.store ≠ .boot) (cell : Cell) :
    m'.byteAt cell = m.byteAt cell ∨ x.Covers m.bus cell ∧ cell.store ≠ .boot := by
  rw [h cell]
  split
  · rename_i hin
    exact .inr ⟨⟨first, hfirst, hin⟩, hin.1 ▸ hboot⟩
  · exact .inl rfl

/-- A write on the bus changes only cells that it covers, and none of boot memory. -/
theorem bytes_of_busWrite {core : Core} {bus : Bus} {journal journal' : Journal} {p : UInt32}
    {value : w.Value} {r : BusReply Unit} (hloc : Location.ofVirtual a = .bus p)
    (h : bus.write w p value = .ok r) (cell : Cell) :
    byteAt ⟨core, r.bus, journal'⟩ cell = byteAt ⟨core, bus, journal⟩ cell ∨
      MemoryWrite.Covers bus ⟨w, a, value⟩ cell ∧ cell.store ≠ .boot := by
  have hfirst : bus.cellAt? a = (bus.route p).cell? := by rw [Bus.cellAt?, hloc]
  dsimp only [Bus.write] at h
  cases hroute : bus.route p with
  | main offset =>
    rw [hroute] at h hfirst
    by_cases hfits : offset + w.bytes ≤ mainSize
    · simp only [Bus.writeRoute, Memory.store_eq_ok _ _ value hfits] at h
      cases h
      exact (puts_main (Memory.puts_put _ _ hfits)).covers hfirst (by simp) cell
    · simp [Bus.writeRoute, Memory.store, Memory.fits, hfits] at h
  | boot offset =>
    rw [hroute] at h
    cases h
    exact .inl rfl
  | iop offset =>
    rw [hroute] at h hfirst
    by_cases hfits : offset + w.bytes ≤ iopSize
    · simp only [Bus.writeRoute, Memory.store_eq_ok _ _ value hfits] at h
      cases h
      exact (puts_iop (Memory.puts_put _ _ hfits)).covers hfirst (by simp) cell
    · simp [Bus.writeRoute, Memory.store, Memory.fits, hfits] at h
  | device unit =>
    rw [hroute] at h
    dsimp only [Bus.writeRoute] at h
    cases hr : bus.devices.write w unit p value with
    | error fault =>
      rw [hr] at h
      cases h
    | ok r' =>
      rw [hr] at h
      cases h
      exact .inl (byteAt_congr rfl rfl cell)
  | unmapped =>
    rw [hroute] at h
    cases h
    exact .inl rfl

/-- A write changes only cells that it covers, and none of boot memory. -/
theorem bytes_of_write {value : w.Value} (h : (Machine.write w a value).run m = .done () m')
    (cell : Cell) : m'.byteAt cell = m.byteAt cell ∨
      MemoryWrite.Covers m.bus ⟨w, a, value⟩ cell ∧ cell.store ≠ .boot := by
  obtain ⟨core, bus, journal⟩ := m
  simp only [run, Machine.write] at h
  cases hloc : Location.ofVirtual a with
  | scratchpad offset =>
    rw [hloc] at h
    dsimp only at h
    split at h <;> cases h
    rename_i hfits
    have hfirst : bus.cellAt? a = some ⟨.scratchpad, offset⟩ := by rw [Bus.cellAt?, hloc]
    have hfits' : offset + w.bytes ≤ scratchpadSize := of_decide_eq_true hfits
    exact (puts_scratchpad (Memory.puts_put _ _ hfits')).covers hfirst (by simp) cell
  | bus p =>
    rw [hloc] at h
    dsimp only at h
    split at h <;> cases h
    rename_i r hr
    exact bytes_of_busWrite hloc hr cell

end Machine

/-! ## What instructions do to memory -/

namespace Instruction

/-- An instruction that is not a store changes the devices on the bus at most. -/
theorem bus_of_execute {i : Instruction} (hi : i.isStore = false) (pc : UInt32) (m : Machine) :
    (i.execute pc).Ensures m fun _ m' => m'.bus = { m.bus with devices := m'.bus.devices } := by
  cases i with
  | load | loadFloat =>
    simp only [execute, loadAligned, effectiveAddress, ensures_bind, ensures_ofCore, ensures_ite,
      ensures_raise, ensures_onCore, ensures_pure, implies_true, and_true]
    exact fun _ => Machine.ensures_read_devices fun _ _ _ => rfl
  | loadPart op rt offset base =>
    simp only [execute, effectiveAddress, ensures_bind, ensures_ofCore, ensures_pure]
    cases op <;> simp only [Exec.loadPart, ensures_bind, ensures_onCore] <;>
      exact Machine.ensures_read_devices fun _ _ _ => rfl
  | store | storeFloat | storePart => cases hi
  | _ => simp [execute, setChecked, setProduct, branch, trapIf]

section Stores

variable {w : Width} {a : UInt32} {base : Gpr} {offset : UInt16} {m : Machine}

/-- An aligned store changes only cells that its write covers. -/
theorem bytes_of_storeAligned {value : w.Value} :
    (storeAligned w base offset value).Ensures m fun _ m' => ∀ cell,
      m'.byteAt cell = m.byteAt cell ∨
        MemoryWrite.Covers m.bus ⟨w, m.core.addressOf base offset, value⟩ cell ∧
          cell.store ≠ .boot := by
  simp only [storeAligned, effectiveAddress, ensures_bind, ensures_ofCore, ensures_ite,
    ensures_raise, implies_true, and_true, ← Core.addressOf_eq]
  exact fun _ _ _ hrun => Machine.bytes_of_write hrun

/-- Reading a value and writing one computed from it changes only cells that the write covers. -/
theorem bytes_of_modify {α : Type} (f : Core → α) (g : w.Value → α → w.Value) :
    Ensures (do
        let memory ← Machine.read w a
        let value ← ofCore f
        Machine.write w a (g memory value)) m fun _ m' => ∀ cell,
      m'.byteAt cell = m.byteAt cell ∨
        MemoryWrite.Covers m.bus ⟨w, a, g (m.peek w a) (f m.core)⟩ cell ∧ cell.store ≠ .boot := by
  simp only [ensures_bind, ensures_ofCore]
  refine Machine.ensures_read_devices fun memory devices journal _ m' hrun cell => ?_
  have hbytes : Machine.byteAt ⟨m.core, { m.bus with devices }, journal⟩ cell = m.byteAt cell :=
    Machine.byteAt_congr rfl rfl cell
  rw [← hbytes]
  refine (Machine.bytes_of_write hrun cell).imp_right (And.imp_left ?_)
  rintro ⟨first, hfirst, hin⟩
  exact ⟨first, (Bus.cellAt?_congr _ _ _).trans hfirst, hin⟩

end Stores

/-- A store changes only cells that its write covers, and none of boot memory; any other instruction
changes none at all. -/
theorem bytes_of_execute (i : Instruction) (pc : UInt32) (m : Machine) :
    (i.execute pc).Ensures m fun _ m' => ∀ cell, m'.byteAt cell = m.byteAt cell ∨
      ∃ x, i.write? m = some x ∧ x.Covers m.bus cell ∧ cell.store ≠ .boot := by
  cases hi : i.isStore with
  | false =>
    intro next m' hrun cell
    exact .inl (Machine.byteAt_congr ((writes_of_execute i pc m next m' hrun).scratchpad hi)
      (bus_of_execute hi pc m next m' hrun) cell)
  | true =>
    cases i with
    | store op rt offset base =>
      simp only [execute, ensures_bind, ensures_ofCore, ensures_pure]
      exact bytes_of_storeAligned.mono fun _ _ h cell =>
        (h cell).imp_right fun hcovers => ⟨_, rfl, hcovers⟩
    | storeFloat ft offset base =>
      simp only [execute, ensures_bind, ensures_ofCore, ensures_pure]
      exact bytes_of_storeAligned.mono fun _ _ h cell =>
        (h cell).imp_right fun hcovers => ⟨_, rfl, hcovers⟩
    | storePart op rt offset base =>
      simp only [execute, effectiveAddress, ensures_bind, ensures_ofCore, ensures_pure,
        ← Core.addressOf_eq]
      cases op <;> exact (bytes_of_modify _ _).mono fun _ _ h cell =>
        (h cell).imp_right fun hcovers => ⟨_, rfl, hcovers⟩
    | _ => cases hi

end Instruction

/-! ## One instruction -/

namespace Machine

/-- The machine `m'` differs from the machine `m` only in the write set of the instruction, in the
program counter, in the devices and in the journal. -/
structure WrittenBy (i : Instruction) (m m' : Machine) : Prop where
  core : m.core.WrittenBy i m'.core
  bytes : ∀ cell, m'.byteAt cell = m.byteAt cell ∨
    ∃ x, i.write? m = some x ∧ x.Covers m.bus cell ∧ cell.store ≠ .boot ∧
      (cell.store = .scratchpad → InScratchpad x.address.toNat)

end Machine

/-- A write that covers a cell of the scratchpad has its address in the window of the scratchpad. -/
theorem MemoryWrite.Covers.inScratchpad {b : Bus} {x : MemoryWrite} {cell : Cell}
    (h : x.Covers b cell) (hstore : cell.store = .scratchpad) : InScratchpad x.address.toNat := by
  obtain ⟨⟨store, offset⟩, hfirst, hsame, -⟩ := h
  obtain rfl : store = .scratchpad := hsame.symm.trans hstore
  exact ((b.cellAt?_eq_some_iff).1 hfirst).1

namespace Instruction

/-- Interpreting an instruction that is done moves the program counter on and writes what executing
it writes. -/
theorem writes_of_interpret (i : Instruction) (m : Machine) :
    i.interpret.Ensures m fun _ m' => m.WrittenBy i m' := by
  simp only [interpret, ensures_bind, ensures_ofCore, ensures_onCore]
  intro next m' hrun
  refine ⟨(writes_of_execute i m.core.pc m next m' hrun).trans (.setPc i _ next), fun cell => ?_⟩
  refine (bytes_of_execute i m.core.pc m next m' hrun cell).imp_right ?_
  rintro ⟨x, hx, hcovers, hboot⟩
  exact ⟨x, hx, hcovers, hboot, hcovers.inScratchpad⟩

/-- **An instruction stays within its write set.** Interpreted on any machine, every decoded word is
done or raises an exception. Of the general registers it changes its destination at most and never
the zero register, and of the destination only quadword loads and the parallel instructions change
the high doubleword. The doubleword of a pipeline in a half of the multiply result, the shift
amount, the float unit, the control registers with the latched lines and the pending branch change
only by the instructions that write them. A byte of memory changes only if the instruction is a
store and its write, for a partial store that of the aligned word or doubleword, covers the byte; it
is then no byte of boot memory, and one of the scratchpad only if the address is in its window. -/
theorem interpret_writes (w : UInt32) (m : Machine) :
    ∃ m', ((decode w).interpret.run m = .done () m' ∨
        ∃ e, (decode w).interpret.run m = .raised e m') ∧ m.WrittenBy (decode w) m' := by
  rcases interpret_cases (decode w) m (decode_shiftsFit w) with ⟨e, hrun, -⟩ | ⟨_, _, hrun, -⟩
  · exact ⟨m, .inr ⟨e, hrun⟩, .refl _ _, fun _ => .inl rfl⟩
  · exact ⟨_, .inl hrun, writes_of_interpret (decode w) m _ _ hrun⟩

end Instruction

end R5900
