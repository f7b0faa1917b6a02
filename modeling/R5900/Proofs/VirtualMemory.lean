import R5900.Proofs.Action
import R5900.Proofs.Bus.Intc
import R5900.Proofs.Bytes
import R5900.Proofs.Cell

/-!
# Memory behind virtual addresses

* `Machine.write_of_cellAt?` and `Machine.read_of_cellAt?`: an access in memory is done; a write
  puts the digits of its value at the cells that it reaches, and a read gives the number that the
  cells spell.
* `Machine.exists_of_perform`: what one access does to all cells, and `Machine.memory_coherent`:
  after any sequence of accesses in memory a read gives, byte by byte, what was last written to each
  cell, whatever the widths and the addresses of the accesses.
-/

namespace R5900

/-- What a cell holds. -/
def Machine.byteAt (m : Machine) (cell : Cell) : UInt8 :=
  match cell.store with
  | .scratchpad => m.core.scratchpad.byte cell.offset
  | .main => m.bus.main.byte cell.offset
  | .boot => m.bus.boot.byte cell.offset
  | .iop => m.bus.iop.byte cell.offset

/-! ## Accesses -/

/-- An access at a virtual address. -/
inductive MemoryAccess where
  | read (width : Width) (address : UInt32)
  | write (write : MemoryWrite)

namespace MemoryAccess

/-- Make an access; what it reads is dropped. -/
def perform : MemoryAccess → Exec Unit
  | read width address => do
    let _ ← Machine.read width address
    return
  | write x => Machine.write x.width x.address x.value

/-- The write of an access, if it is one. -/
def write? : MemoryAccess → Option MemoryWrite
  | read _ _ => none
  | write x => some x

end MemoryAccess

/-- The `length` bytes from a virtual address up lie in one memory. -/
def Bus.InMemory (b : Bus) (a : UInt32) (length : Nat) : Prop :=
  ∃ cell, b.cellAt? a = some cell ∧ cell.offset + length ≤ cell.store.size

/-- The start of an access names a cell, and its bytes stay in the memory of that cell. -/
def MemoryAccess.InMemory (b : Bus) : MemoryAccess → Prop
  | read width address => b.InMemory address width.bytes
  | write x => b.InMemory x.address x.width.bytes

/-- Make accesses in order. -/
def Machine.performAll : List MemoryAccess → Exec Unit
  | [] => pure ()
  | access :: rest => do
    access.perform
    performAll rest

/-- The byte that a write writes to a cell, if it reaches the cell. -/
def MemoryWrite.byteFor? (b : Bus) (x : MemoryWrite) (cell : Cell) : Option UInt8 :=
  ((List.range x.width.bytes).find? fun i => b.cellAt? (x.address + UInt32.ofNat i) = some cell).map
    (digit (x.width.number x.value))

/-- What a cell holds after writes: the byte of the last one that reaches it. Boot memory keeps what
it holds. -/
def Machine.byteAfter (m : Machine) (writes : List MemoryWrite) (cell : Cell) : UInt8 :=
  if cell.store = .boot then m.byteAt cell
  else (writes.reverse.findSome? (·.byteFor? m.bus cell)).getD (m.byteAt cell)

theorem MemoryWrite.byteFor?_eq {b : Bus} {x : MemoryWrite} {first : Cell}
    (h : b.cellAt? x.address = some first) (hfit : first.offset + x.width.bytes ≤ first.store.size)
    (cell : Cell) :
    x.byteFor? b cell =
      if cell.store = first.store ∧ first.offset ≤ cell.offset ∧
          cell.offset < first.offset + x.width.bytes then
        some (digit (x.width.number x.value) (cell.offset - first.offset))
      else none := by
  have hcell : ∀ i, i < x.width.bytes →
      (b.cellAt? (x.address + UInt32.ofNat i) = some cell ↔
        cell.store = first.store ∧ cell.offset = first.offset + i) := by
    intro i hi
    obtain ⟨store, offset⟩ := cell
    rw [Bus.cellAt?_add h (by omega), Option.some.injEq, Cell.mk.injEq, eq_comm,
      eq_comm (a := first.offset + i)]
  rw [byteFor?]
  split
  · rename_i hin
    obtain ⟨hstore, hle, hlt⟩ := hin
    have hfind : ((List.range x.width.bytes).find? fun i =>
        b.cellAt? (x.address + UInt32.ofNat i) = some cell) =
          some (cell.offset - first.offset) := by
      rw [List.find?_range_eq_some]
      refine ⟨?_, List.mem_range.2 (by omega), fun i hi => ?_⟩
      · exact decide_eq_true ((hcell _ (by omega)).2 ⟨hstore, by omega⟩)
      · rw [Bool.not_eq_true', decide_eq_false_iff_not, hcell i (by omega)]
        omega
    rw [hfind]
    rfl
  · rename_i hout
    have hfind : ((List.range x.width.bytes).find? fun i =>
        b.cellAt? (x.address + UInt32.ofNat i) = some cell) = none := by
      rw [List.find?_range_eq_none]
      intro i hi
      rw [Bool.not_eq_true', decide_eq_false_iff_not, hcell i hi]
      rintro ⟨hstore, hoffset⟩
      exact hout ⟨hstore, by omega, by omega⟩
    rw [hfind]
    rfl

namespace Machine

/-- The machine `m'` is the machine `m` but for the journal, the scratchpad, main memory and the
memory of the input/output processor. -/
structure SameButMemory (m m' : Machine) : Prop where
  core : m'.core = { m.core with scratchpad := m'.core.scratchpad }
  bus : m'.bus = { m.bus with main := m'.bus.main, iop := m'.bus.iop }

theorem SameButMemory.refl (m : Machine) : m.SameButMemory m := ⟨rfl, rfl⟩

theorem SameButMemory.trans {m m₁ m₂ : Machine} (h : m.SameButMemory m₁)
    (h' : m₁.SameButMemory m₂) : m.SameButMemory m₂ := by
  refine ⟨?_, ?_⟩
  · rw [h'.core, h.core]
  · rw [h'.bus, h.bus]

/-- Reaching a cell, an address names an offset of the scratchpad or an address on the bus that
leads to the cell. -/
theorem location_of_cellAt? {b : Bus} {a : UInt32} {cell : Cell} (h : b.cellAt? a = some cell) :
    Location.ofVirtual a = .scratchpad cell.offset ∧ cell.store = .scratchpad ∨
      ∃ p, Location.ofVirtual a = .bus p ∧ (b.route p).cell? = some cell := by
  unfold Bus.cellAt? at h
  split at h
  · rename_i hloc
    cases h
    exact .inl ⟨hloc, rfl⟩
  · rename_i p hloc
    exact .inr ⟨p, hloc, h⟩

/-- From the machine `m` to the machine `m'`, the `length` cells from a cell up have come to hold
the digits of a number, and every other cell holds what it held. -/
def Puts (m m' : Machine) (first : Cell) (length n : Nat) : Prop :=
  ∀ cell, m'.byteAt cell =
    if cell.store = first.store ∧ first.offset ≤ cell.offset ∧
        cell.offset < first.offset + length then
      digit n (cell.offset - first.offset)
    else m.byteAt cell

section Write

variable {core : Core} {bus : Bus} {journal journal' : Journal} {offset length n : Nat}

theorem puts_scratchpad {scratchpad : Memory scratchpadSize}
    (h : core.scratchpad.Puts scratchpad offset length n) :
    Puts ⟨core, bus, journal⟩ ⟨{ core with scratchpad := scratchpad }, bus, journal'⟩
      ⟨.scratchpad, offset⟩ length n := by
  rintro ⟨store, j⟩
  cases store with
  | scratchpad => simpa [byteAt] using h j
  | _ => rfl

theorem puts_main {main : Memory mainSize} (h : bus.main.Puts main offset length n) :
    Puts ⟨core, bus, journal⟩ ⟨core, { bus with main := main }, journal'⟩ ⟨.main, offset⟩
      length n := by
  rintro ⟨store, j⟩
  cases store with
  | main => simpa [byteAt] using h j
  | _ => rfl

theorem puts_iop {iop : Memory iopSize} (h : bus.iop.Puts iop offset length n) :
    Puts ⟨core, bus, journal⟩ ⟨core, { bus with iop := iop }, journal'⟩ ⟨.iop, offset⟩
      length n := by
  rintro ⟨store, j⟩
  cases store with
  | iop => simpa [byteAt] using h j
  | _ => rfl

end Write

/-- A write in memory is done. It puts its value at the cells that it reaches, or nothing at all if
these are cells of boot memory. -/
theorem write_of_cellAt? {m : Machine} (x : MemoryWrite) {first : Cell}
    (hcell : m.bus.cellAt? x.address = some first)
    (hfit : first.offset + x.width.bytes ≤ first.store.size) :
    ∃ m', (Machine.write x.width x.address x.value).run m = .done () m' ∧ m.SameButMemory m' ∧
      if first.store = .boot then ∃ journal, m' = { m with journal := journal }
      else m.Puts m' first x.width.bytes (x.width.number x.value) := by
  obtain ⟨core, bus, journal⟩ := m
  obtain ⟨store, offset⟩ := first
  rcases location_of_cellAt? hcell with ⟨hloc, hstore⟩ | ⟨p, hloc, hroute⟩
  · obtain rfl : store = .scratchpad := hstore
    have hfits : core.scratchpad.fits x.width offset = true := decide_eq_true hfit
    simp only [Exec.run, Machine.write, hloc, hfits, if_true]
    exact ⟨_, rfl, ⟨rfl, rfl⟩, puts_scratchpad (Memory.puts_put _ _ hfit)⟩
  · simp only [Exec.run, Machine.write, hloc, Bus.write]
    cases hr : bus.route p with
    | main o =>
      rw [hr] at hroute
      cases hroute
      have hfit : offset + x.width.bytes ≤ mainSize := hfit
      simp only [Bus.writeRoute, Memory.store_eq_ok _ _ x.value hfit]
      exact ⟨_, rfl, ⟨rfl, rfl⟩, puts_main (Memory.puts_put _ _ hfit)⟩
    | boot o =>
      rw [hr] at hroute
      cases hroute
      exact ⟨_, rfl, ⟨rfl, rfl⟩, ⟨_, rfl⟩⟩
    | iop o =>
      rw [hr] at hroute
      cases hroute
      have hfit : offset + x.width.bytes ≤ iopSize := hfit
      simp only [Bus.writeRoute, Memory.store_eq_ok _ _ x.value hfit]
      exact ⟨_, rfl, ⟨rfl, rfl⟩, puts_iop (Memory.puts_put _ _ hfit)⟩
    | device unit => rw [hr] at hroute; cases hroute
    | unmapped => rw [hr] at hroute; cases hroute

/-- A read in memory is done and changes the journal only. What it reads spells the number with the
bytes of its cells as digits. -/
theorem read_of_cellAt? {m : Machine} (w : Width) {a : UInt32} {first : Cell}
    (hcell : m.bus.cellAt? a = some first) (hfit : first.offset + w.bytes ≤ first.store.size) :
    ∃ value journal, (Machine.read w a).run m = .done value { m with journal := journal } ∧
      w.number value = ofDigitFn (fun i => m.byteAt ⟨first.store, first.offset + i⟩) w.bytes := by
  obtain ⟨core, bus, journal⟩ := m
  obtain ⟨store, offset⟩ := first
  rcases location_of_cellAt? hcell with ⟨hloc, hstore⟩ | ⟨p, hloc, hroute⟩
  · obtain rfl : store = .scratchpad := hstore
    have hfit : offset + w.bytes ≤ scratchpadSize := hfit
    simp only [Exec.run, Machine.read, hloc, Memory.load_eq_ok _ _ hfit]
    exact ⟨_, _, rfl, Memory.number_get ..⟩
  · simp only [Exec.run, Machine.read, hloc, Bus.read]
    cases hr : bus.route p with
    | main o =>
      rw [hr] at hroute
      cases hroute
      have hfit : offset + w.bytes ≤ mainSize := hfit
      simp only [Bus.readRoute, Memory.load_eq_ok _ _ hfit]
      exact ⟨_, _, rfl, Memory.number_get ..⟩
    | boot o =>
      rw [hr] at hroute
      cases hroute
      have hfit : offset + w.bytes ≤ bootSize := hfit
      simp only [Bus.readRoute, Memory.load_eq_ok _ _ hfit]
      exact ⟨_, _, rfl, Memory.number_get ..⟩
    | iop o =>
      rw [hr] at hroute
      cases hroute
      have hfit : offset + w.bytes ≤ iopSize := hfit
      simp only [Bus.readRoute, Memory.load_eq_ok _ _ hfit]
      exact ⟨_, _, rfl, Memory.number_get ..⟩
    | device unit => rw [hr] at hroute; cases hroute
    | unmapped => rw [hr] at hroute; cases hroute

/-- A word that is read in main memory. -/
theorem read_main {m : Machine} {a : UInt32} (offset : Nat)
    (hcell : Cell.ofNat? a.toNat = some ⟨.main, offset⟩) (hfit : offset + 4 ≤ mainSize) :
    ∃ journal, (Machine.read .word a).run m =
      .done (m.bus.main.get .word offset) { m with journal := journal } := by
  obtain ⟨value, journal, hread, hnumber⟩ :=
    read_of_cellAt? (m := m) .word ((m.bus.cellAt?_eq a).trans hcell) hfit
  have hvalue : value = m.bus.main.get .word offset := UInt32.toNat_inj.1
    ((Width.number_word value).symm.trans (hnumber.trans (Memory.toNat_get_word offset).symm))
  exact ⟨journal, hvalue ▸ hread⟩

/-! ## Sequences of accesses -/

theorem byteFor?_congr (b b' : Bus) (x : MemoryWrite) (cell : Cell) :
    x.byteFor? b' cell = x.byteFor? b cell := by
  simp only [MemoryWrite.byteFor?, Bus.cellAt?_eq]

/-- What cells hold after some writes and then others is what they hold after both. -/
theorem byteAfter_append {m m₁ : Machine} {writes : List MemoryWrite}
    (h : ∀ cell, m₁.byteAt cell = m.byteAfter writes cell) (writes' : List MemoryWrite)
    (cell : Cell) : m₁.byteAfter writes' cell = m.byteAfter (writes ++ writes') cell := by
  have hcell := h cell
  unfold byteAfter at hcell ⊢
  by_cases hboot : cell.store = .boot
  · simpa only [if_pos hboot] using hcell
  · simp only [if_neg hboot] at hcell ⊢
    simp only [List.reverse_append, List.findSome?_append, byteFor?_congr m.bus m₁.bus, hcell]
    cases List.findSome? (·.byteFor? m.bus cell) writes'.reverse <;> rfl

/-- A write in memory is done, and cells then hold what they hold after this write. -/
theorem write_of_inMemory {m : Machine} (x : MemoryWrite)
    (h : m.bus.InMemory x.address x.width.bytes) :
    ∃ m', (Machine.write x.width x.address x.value).run m = .done () m' ∧ m.SameButMemory m' ∧
      ∀ cell, m'.byteAt cell = m.byteAfter [x] cell := by
  obtain ⟨first, hcell, hfit⟩ := h
  obtain ⟨m', hrun, hsame, hputs⟩ := write_of_cellAt? x hcell hfit
  refine ⟨m', hrun, hsame, fun cell => ?_⟩
  have hafter : m.byteAfter [x] cell =
      if cell.store = .boot then m.byteAt cell
      else (x.byteFor? m.bus cell).getD (m.byteAt cell) := by
    simp [byteAfter]
  rw [hafter, MemoryWrite.byteFor?_eq hcell hfit]
  split at hputs
  · rename_i hboot
    obtain ⟨journal, rfl⟩ := hputs
    split
    · rfl
    · rename_i hcell
      rw [if_neg fun hin => hcell (hin.1.trans hboot)]
      rfl
  · rename_i hstored
    rw [hputs cell]
    split
    · rename_i hin
      rw [if_neg fun hboot => hstored (hin.1.symm.trans hboot)]
      rfl
    · exact (ite_self _).symm

/-- An access in memory is done, and cells then hold what they hold after its write. -/
theorem exists_of_perform {m : Machine} {access : MemoryAccess} (h : access.InMemory m.bus) :
    ∃ m', access.perform.run m = .done () m' ∧ m.SameButMemory m' ∧
      ∀ cell, m'.byteAt cell = m.byteAfter access.write?.toList cell := by
  cases access with
  | read w a =>
    obtain ⟨first, hcell, hfit⟩ := h
    obtain ⟨value, journal, hrun, -⟩ := read_of_cellAt? w hcell hfit
    exact ⟨{ m with journal := journal }, Exec.run_bind_done hrun, ⟨rfl, rfl⟩,
      fun cell => (ite_self _).symm⟩
  | write x => exact write_of_inMemory x h

theorem inMemory_congr {b b' : Bus} {access : MemoryAccess} (h : access.InMemory b) :
    access.InMemory b' := by
  cases access <;>
    simpa only [MemoryAccess.InMemory, Bus.InMemory, Bus.cellAt?_eq] using h

/-- Accesses in memory are done, and cells then hold what they hold after their writes. -/
theorem exists_of_performAll {m : Machine} {accesses : List MemoryAccess}
    (h : ∀ access ∈ accesses, access.InMemory m.bus) :
    ∃ m', (performAll accesses).run m = .done () m' ∧ m.SameButMemory m' ∧
      ∀ cell, m'.byteAt cell = m.byteAfter (accesses.filterMap (·.write?)) cell := by
  induction accesses generalizing m with
  | nil => exact ⟨m, rfl, .refl m, fun cell => (ite_self _).symm⟩
  | cons access rest ih =>
    obtain ⟨m₁, hrun, hsame, hbytes⟩ := exists_of_perform (h access List.mem_cons_self)
    obtain ⟨m', hrun', hsame', hbytes'⟩ := ih (m := m₁) fun access' hmem =>
      inMemory_congr (h access' (List.mem_cons_of_mem _ hmem))
    refine ⟨m', (Exec.run_bind_done hrun).trans hrun', hsame.trans hsame', fun cell => ?_⟩
    rw [hbytes', byteAfter_append hbytes]
    cases access <;> rfl

/-- **Memory is one store of bytes under all its addresses.** Take any sequence of accesses that
start in a memory and stay in it, at any alignment and of any widths. It is done, and changes
nothing but the journal and the memories other than boot memory. Every cell then holds the byte that
was last written to it, whatever the width and the address of that write. A further read in memory
is done, changes the journal only and gives the number whose digits are the bytes of its cells,
lowest first. Two addresses name the same cell exactly if they are `SameByte`. -/
theorem memory_coherent (m : Machine) (accesses : List MemoryAccess)
    (h : ∀ access ∈ accesses, access.InMemory m.bus) :
    (∃ m', (performAll accesses).run m = .done () m' ∧ m.SameButMemory m' ∧
      (∀ cell, m'.byteAt cell = m.byteAfter (accesses.filterMap (·.write?)) cell) ∧
      ∀ (w : Width) (a : UInt32), m.bus.InMemory a w.bytes →
        ∃ value journal, (Machine.read w a).run m' = .done value { m' with journal := journal } ∧
          w.number value = ofDigitFn (fun i => (m.bus.cellAt? (a + UInt32.ofNat i)).elim 0
            (m.byteAfter (accesses.filterMap (·.write?)))) w.bytes) ∧
    ∀ a a' : UInt32, (∃ cell, m.bus.cellAt? a = some cell ∧ m.bus.cellAt? a' = some cell) ↔
      SameByte a.toNat a'.toNat := by
  refine ⟨?_, m.bus.exists_cellAt?_iff⟩
  obtain ⟨m', hrun, hsame, hbytes⟩ := exists_of_performAll h
  refine ⟨m', hrun, hsame, hbytes, fun w a hmem => ?_⟩
  obtain ⟨first, hcell, hfit⟩ := hmem
  have hcell' : m'.bus.cellAt? a = some first := by rwa [Bus.cellAt?_eq, ← m.bus.cellAt?_eq]
  obtain ⟨value, journal, hread, hnumber⟩ := read_of_cellAt? w hcell' hfit
  refine ⟨value, journal, hread, hnumber.trans (ofDigitFn_congr fun i hi => ?_)⟩
  rw [hbytes, Bus.cellAt?_add hcell (by omega)]
  rfl

/-- A word written through one alias of main memory and a halfword written into it through
another. -/
theorem memory_coherent_aliases :
    let m : Machine := ⟨Core.initial, Bus.initial, .silent⟩
    let accesses : List MemoryAccess :=
      [.write ⟨.word, 0x80100000, (0x11223344 : UInt32)⟩,
        .write ⟨.half, 0x30100002, (0xAABB : UInt16)⟩]
    (∀ access ∈ accesses, access.InMemory m.bus) ∧
    (∃ m', (performAll accesses).run m = .done () m' ∧ m.SameButMemory m' ∧
      (∀ cell, m'.byteAt cell = m.byteAfter (accesses.filterMap (·.write?)) cell) ∧
      ∀ (w : Width) (a : UInt32), m.bus.InMemory a w.bytes →
        ∃ value journal, (Machine.read w a).run m' = .done value { m' with journal := journal } ∧
          w.number value = ofDigitFn (fun i => (m.bus.cellAt? (a + UInt32.ofNat i)).elim 0
            (m.byteAfter (accesses.filterMap (·.write?)))) w.bytes) ∧
    ∀ a a' : UInt32, (∃ cell, m.bus.cellAt? a = some cell ∧ m.bus.cellAt? a' = some cell) ↔
      SameByte a.toNat a'.toNat := by
  intro m accesses
  have hmem : ∀ access ∈ accesses, access.InMemory m.bus := by
    refine List.forall_mem_cons.2 ⟨⟨⟨.main, 0x100000⟩, ?_, by decide⟩,
      List.forall_mem_singleton.2 ⟨⟨.main, 0x100002⟩, ?_, by decide⟩⟩
    · rw [Bus.cellAt?_eq]
      rfl
    · rw [Bus.cellAt?_eq]
      rfl
  exact ⟨hmem, memory_coherent m accesses hmem⟩

end Machine

end R5900
