import R5900.Proofs.Execute.UnalignedLoad

/-!
# Unaligned stores

A left and a right partial store for the value at one address, executed one after the other, store
the low bytes of a register there and change nothing else, whichever comes first and wherever the
address lies in its word or doubleword. The matching pair of partial loads then loads what was
stored (`PairWidth.unaligned_store`).

`Machine.Deposits` says what a store has done to the cells of memory: given bytes went to given
addresses, and every other cell holds what it held. One partial store deposits the bytes that it
moves (`PairWidth.exists_storePart`). It reads its whole block and writes it back, so the bytes that
it does not move are written too, with what they held. Two deposits of the same value make one if no
cell is named by two of its bytes (`Machine.Deposits.trans`), and the addresses of a value name
different cells (`Bus.eq_of_cellAt?`).
-/

namespace R5900

open Exec

/-! ## Deposits -/

/-- An address names a cell of memory that can be written, so not one of boot memory. -/
def Bus.Writable (b : Bus) (a : UInt32) : Prop :=
  ∃ cell, b.cellAt? a = some cell ∧ cell.store ≠ .boot

theorem Bus.Writable.congr {b : Bus} {a : UInt32} (h : b.Writable a) (b' : Bus) :
    b'.Writable a := by
  rwa [Writable, Bus.cellAt?_congr b b']

/-- Nearby addresses name different cells. -/
theorem Bus.eq_of_cellAt? {b : Bus} {a : UInt32} {cell : Cell} {i j : Nat} (hi : i < 8) (hj : j < 8)
    (h : b.cellAt? (a + UInt32.ofNat i) = some cell)
    (h' : b.cellAt? (a + UInt32.ofNat j) = some cell) : i = j := by
  have hsame := (b.exists_cellAt?_iff _ _).1 ⟨cell, h, h'⟩
  rw [PairWidth.toNat_add_ofNat a (by omega), PairWidth.toNat_add_ofNat a (by omega)] at hsame
  -- the memories repeat every 32 MiB at most
  have hlow : ∀ n, physical n % 2 ^ 25 = n % 2 ^ 25 := fun n => by
    unfold physical
    split <;> omega
  have hmod : (a.toNat + i) % 2 ^ 32 % 2 ^ 25 = (a.toNat + j) % 2 ^ 32 % 2 ^ 25 := by
    rcases hsame with ⟨-, -, heq⟩ | ⟨-, -, ⟨-, -, heq⟩ | ⟨-, -, heq⟩ | ⟨-, -, heq⟩⟩
    · rw [heq]
    · rwa [hlow, hlow] at heq
    · rw [← hlow, heq, hlow]
    · rw [← hlow, heq, hlow]
  omega

namespace Machine

variable {m m₁ m' : Machine} {a : UInt32} {length n : Nat} {moved moved' : Nat → Prop}

/-- From the machine `m` to the machine `m'`, those digits of a number that are moved have been
written to the addresses from `a` up, the digit `i` to `a + i`, and every other cell holds what it
held. -/
structure Deposits (m m' : Machine) (a : UInt32) (length n : Nat) (moved : Nat → Prop) : Prop where
  stored : ∀ i < length, moved i →
    ∃ cell, m.bus.cellAt? (a + UInt32.ofNat i) = some cell ∧ m'.byteAt cell = digit n i
  kept : ∀ cell, (∀ i < length, moved i → m.bus.cellAt? (a + UInt32.ofNat i) ≠ some cell) →
    m'.byteAt cell = m.byteAt cell

namespace Deposits

theorem congr (h : m.Deposits m' a length n moved) (hmoved : ∀ i < length, moved i ↔ moved' i) :
    m.Deposits m' a length n moved' where
  stored i hi hi' := h.stored i hi ((hmoved i hi).2 hi')
  kept cell hcell := h.kept cell fun i hi hi' => hcell i hi ((hmoved i hi).1 hi')

/-- What the first of two deposits of one number has written the second keeps or writes again. -/
theorem trans (h : m.Deposits m₁ a length n moved) (h' : m₁.Deposits m' a length n moved')
    (hlength : length ≤ 8) : m.Deposits m' a length n fun i => moved i ∨ moved' i where
  stored i hi hor := by
    by_cases hi' : moved' i
    · obtain ⟨cell, hcell, hbyte⟩ := h'.stored i hi hi'
      exact ⟨cell, (m.bus.cellAt?_congr m₁.bus _).symm.trans hcell, hbyte⟩
    · obtain ⟨cell, hcell, hbyte⟩ := h.stored i hi (hor.resolve_right hi')
      refine ⟨cell, hcell, (h'.kept cell fun j hj hj' hcell' => hi' ?_).trans hbyte⟩
      rw [m.bus.cellAt?_congr] at hcell'
      rwa [Bus.eq_of_cellAt? (by omega) (by omega) hcell hcell']
  kept cell hcell := by
    refine (h'.kept cell fun i hi hi' => ?_).trans
      (h.kept cell fun i hi hi' => hcell i hi (.inl hi'))
    rw [m.bus.cellAt?_congr]
    exact hcell i hi (.inr hi')

/-- The bytes that have been moved are those of the number. -/
theorem virtualByte_eq (h : m.Deposits m' a length n moved) {i : Nat} (hi : i < length)
    (hmoved : moved i) : m'.virtualByte (a + UInt32.ofNat i) = digit n i := by
  obtain ⟨cell, hcell, hbyte⟩ := h.stored i hi hmoved
  rw [virtualByte, m.bus.cellAt?_congr, hcell, Option.elim_some, hbyte]

end Deposits

/-- Reading a value and writing one computed from it is that write, after the read. -/
theorem run_modify_of_done {α : Type} {w : Width} {value : w.Value} (f : Core → α)
    (g : w.Value → α → w.Value) (h : (Machine.read w a).run m = .done value m₁)
    (hcore : m₁.core = m.core) :
    (do
      let memory ← Machine.read w a
      let value ← ofCore f
      Machine.write w a (g memory value)).run m =
        (Machine.write w a (g (m.peek w a) (f m.core))).run m₁ := by
  rw [run_bind_done h, run_ofCore_bind, hcore, peek, h]

end Machine

namespace PairWidth

variable {p : PairWidth} {side : Side} {rt : Gpr} {m : Machine} {a e : UInt32}

/-! ## One partial store -/

theorem aligned_store (p : PairWidth) (side : Side) (e : UInt32) :
    (p.store side).aligned e = p.block e := by
  cases p <;> cases side <;> rfl

theorem position_store (p : PairWidth) (side : Side) (e : UInt32) :
    (p.store side).position e = e.toNat % p.bytes := by
  cases p <;> cases side <;> first | exact toNat_and_three e | exact toNat_and_seven e

theorem width_write_store (p : PairWidth) (side : Side) (rt : Gpr) (e : UInt32) (m : Machine) :
    ((p.store side).write rt e m).width = p.width := by
  cases p <;> cases side <;> rfl

/-- A byte of the block that has a byte of the register is stored from there. -/
theorem storedBit?_of_blockByte? {k i j b : Nat} (hk : k < p.bytes) (hi : i < p.bytes) (hb : b < 8)
    (h : p.blockByte? side k i = some j) :
    (p.store side).storedBit? k (8 * j + b) = some (8 * i + b) := by
  cases side <;>
    simp only [blockByte?, Option.ite_none_right_eq_some, Option.some.injEq] at h <;>
    cases p <;>
    simp only [bytes] at h hk hi <;>
    simp only [store, PartStoreOp.storedBit?, Option.ite_none_right_eq_some, Option.some.injEq] <;>
    omega

/-- A byte of the block that has no byte of the register is not stored. -/
theorem storedBit?_eq_none {k j b : Nat} (hk : k < p.bytes) (hj : j < p.bytes) (hb : b < 8)
    (h : ∀ i < p.bytes, p.blockByte? side k i ≠ some j) :
    (p.store side).storedBit? k (8 * j + b) = none := by
  cases side with
  | left =>
    have hout := h (j + (p.bytes - 1 - k))
    simp only [blockByte?, ne_eq, Option.ite_none_right_eq_some, Option.some.injEq] at hout
    cases p <;> simp only [bytes] at hout hk hj <;>
      simp only [store, PartStoreOp.storedBit?, ite_eq_right_iff, reduceCtorEq, imp_false] <;>
      omega
  | right =>
    have hout := h (j - k)
    simp only [blockByte?, ne_eq, Option.ite_none_right_eq_some, Option.some.injEq] at hout
    cases p <;> simp only [bytes] at hout hk hj <;>
      simp only [store, PartStoreOp.storedBit?, ite_eq_right_iff, reduceCtorEq, imp_false] <;>
      omega

/-- A partial store writes the bytes of the register that it moves to their places in the block, and
to the other places what it has read there. -/
theorem digit_write (p : PairWidth) (side : Side) (rt : Gpr) (e : UInt32) (m : Machine) {j : Nat}
    (hj : j < p.bytes) :
    (∀ i < p.bytes, p.blockByte? side (e.toNat % p.bytes) i = some j →
      digit (((p.store side).write rt e m).width.number ((p.store side).write rt e m).value) j =
        digit (m.core.double rt).toNat i) ∧
    ((∀ i < p.bytes, p.blockByte? side (e.toNat % p.bytes) i ≠ some j) →
      digit (((p.store side).write rt e m).width.number ((p.store side).write rt e m).value) j =
        digit ((p.store side).held e m) j) := by
  have hk : e.toNat % p.bytes < p.bytes :=
    Nat.mod_lt _ (by rcases p.bytes_cases with h | h <;> omega)
  have hbit : ∀ b < 8,
      (((p.store side).write rt e m).width.number ((p.store side).write rt e m).value).testBit
        (8 * j + b) = (((p.store side).storedBit? (e.toNat % p.bytes) (8 * j + b)).map
          (m.core.double rt).toNat.testBit).getD
            (((p.store side).held e m).testBit (8 * j + b)) := by
    intro b hb
    rw [PartStoreOp.testBit_write _ _ _ _ (by rw [width_write_store, bytes_width]; omega),
      PartStoreOp.stored?, position_store]
  refine ⟨fun i hi hplace => ?_, fun hout => ?_⟩
  · refine digit_eq_of_testBit fun b hb => ?_
    rw [hbit b hb, storedBit?_of_blockByte? hk hi hb hplace, Option.map_some, Option.getD_some]
  · refine digit_eq_of_testBit fun b hb => ?_
    rw [hbit b hb, storedBit?_eq_none hk hj hb hout, Option.map_none, Option.getD_none]

/-- A partial store reads its block, and then makes its write. -/
theorem run_storePart_eq (p : PairWidth) (side : Side) (rt : Gpr) {cell : Cell}
    (h : m.bus.cellAt? e = some cell) :
    ∃ journal, (Exec.storePart (p.store side) rt e).run m =
        (Machine.write ((p.store side).write rt e m).width ((p.store side).write rt e m).address
          ((p.store side).write rt e m).value).run { m with journal := journal } ∧
      ∀ j < p.bytes, digit ((p.store side).held e m) j =
        m.virtualByte (p.block e + UInt32.ofNat j) := by
  obtain ⟨value, journal, hread, hdigits⟩ := Machine.read_block p h
  have hpeek : m.peek p.width (p.block e) = value := by rw [Machine.peek, hread]
  have hheld : (p.store side).held e m = p.width.number value := by
    rw [← hpeek]
    cases p <;> cases side <;> rfl
  refine ⟨journal, ?_, fun j hj => by rw [hheld, hdigits j hj]⟩
  cases p <;> cases side <;> exact Machine.run_modify_of_done _ _ hread rfl

/-- A partial store for the value at an address stores the bytes that it moves, and changes no other
cell. -/
theorem run_storePart (rt : Gpr) (h : m.bus.Writable (p.point side a)) :
    ∃ m', (Exec.storePart (p.store side) rt (p.point side a)).run m = .done () m' ∧
      m.SameButMemory m' ∧
      m.Deposits m' a p.bytes (m.core.double rt).toNat (p.Moves side a) := by
  obtain ⟨cell, hcell, hstore⟩ := h
  obtain ⟨journal, hrun, hheld⟩ := run_storePart_eq p side rt hcell
  obtain ⟨hblock, -, hfit⟩ := Bus.cellAt?_block p hcell
  have hlength : ((p.store side).write rt (p.point side a) m).width.bytes = p.bytes := by
    rw [width_write_store, bytes_width]
  obtain ⟨m', hwrite, hsame, hputs⟩ := Machine.write_of_cellAt? (m := { m with journal := journal })
    ((p.store side).write rt (p.point side a) m)
    (by rw [PartStoreOp.address_write, aligned_store]; exact hblock) (by rw [hlength]; exact hfit)
  rw [if_neg hstore, hlength] at hputs
  refine ⟨m', hrun.trans hwrite, ⟨hsame.core, hsame.bus⟩, fun i hi hmoves => ?_, fun c hc => ?_⟩
  · cases hplace : p.blockByte? side ((p.point side a).toNat % p.bytes) i with
    | none => exact absurd hmoves (not_moves_of_blockByte? hi hplace)
    | some j =>
      have hj := blockByte?_lt hi hplace
      refine ⟨_, (congrArg _ (address_of_blockByte? hi hplace).2).trans
        (Machine.virtualByte_block p hcell hj).1, ?_⟩
      rw [hputs, if_pos ⟨rfl, Nat.le_add_right .., Nat.add_lt_add_left hj _⟩,
        ← (digit_write p side rt _ m hj).1 i hi hplace, Nat.add_sub_cancel_left]
  · rw [hputs]
    split
    · -- the cell is in the block, and what has been read there is written back
      rename_i hin
      obtain ⟨hin, hle, hlt⟩ := hin
      obtain ⟨store, offset⟩ := c
      obtain ⟨j, rfl⟩ := Nat.exists_eq_add_of_le hle
      obtain rfl : store = cell.store := hin
      have hj : j < p.bytes := Nat.lt_of_add_lt_add_left hlt
      obtain ⟨hnamed, hbyte⟩ := Machine.virtualByte_block p hcell hj
      rw [Nat.add_sub_cancel_left, (digit_write p side rt _ m hj).2 fun i hi hplace => ?_,
        hheld j hj, hbyte]
      obtain ⟨hmoves, haddress⟩ := address_of_blockByte? hi hplace
      exact hc i hi hmoves ((congrArg _ haddress).trans hnamed)
    · rfl

/-- A partial store as an instruction. -/
theorem exists_storePart {offset : UInt16} {base : Gpr}
    (haddress : m.core.addressOf base offset = p.point side a)
    (h : m.bus.Writable (p.point side a)) (rt : Gpr) :
    ∃ m', (Instruction.interpret (.storePart (p.store side) rt offset base)).run m = .done () m' ∧
      Machine.SameButMemory { m with core := { m.core with pc := m.core.pc + 4 } } m' ∧
      m.Deposits m' a p.bytes (m.core.double rt).toNat (p.Moves side a) := by
  obtain ⟨m', hrun, hsame, hdeposits⟩ := run_storePart rt h
  rw [← haddress] at hrun
  refine ⟨_, Instruction.interpret_of_execute (Instruction.run_storePart hrun), ⟨?_, hsame.bus⟩,
    hdeposits.stored, hdeposits.kept⟩
  rw [hsame.core]

/-- The bytes that a partial store may change: those of the block of its effective address, up to
there for a left one and from there on for a right one. -/
def Spans (p : PairWidth) (side : Side) (e x : UInt32) : Prop :=
  x.toNat / p.bytes = e.toNat / p.bytes ∧
    match side with
    | .left => x ≤ e
    | .right => e ≤ x

theorem spans_of_moves {i : Nat} (hi : i < p.bytes) (h : p.Moves side a i) :
    p.Spans side (p.point side a) (a + UInt32.ofNat i) := by
  have hbytes := p.bytes_cases
  have hmax := a.toNat_lt
  have hsum := toNat_add_ofNat a (i := i) (by omega)
  refine ⟨h, ?_⟩
  cases side with
  | left =>
    have hpoint := p.toNat_point_left a
    show a + UInt32.ofNat i ≤ p.point .left a
    rw [Moves, hsum, hpoint] at h
    rw [UInt32.le_iff_toNat_le, hsum, hpoint]
    rcases hbytes with hbytes | hbytes <;> simp only [hbytes] at * <;> omega
  | right =>
    have hpoint : (p.point .right a).toNat = a.toNat := rfl
    show p.point .right a ≤ a + UInt32.ofNat i
    rw [Moves, hsum, hpoint] at h
    rw [UInt32.le_iff_toNat_le, hsum, hpoint]
    rcases hbytes with hbytes | hbytes <;> simp only [hbytes] at * <;> omega

/-- Every address is the effective address of a side for the value at some address. -/
theorem exists_point (p : PairWidth) (side : Side) (e : UInt32) : ∃ a, p.point side a = e := by
  cases side with
  | left => exact ⟨e - UInt32.ofNat (p.bytes - 1), UInt32.sub_add_cancel ..⟩
  | right => exact ⟨e, rfl⟩

/-! ## Pairs -/

/-- The partial stores of a pair one after the other, the one of a side first. Each has a base
register and an offset of its own. -/
def stores (p : PairWidth) (first : Side) (rt : Gpr) (base : Side → Gpr) (offset : Side → UInt16) :
    Exec Unit := do
  Instruction.interpret (.storePart (p.store first) rt (offset first) (base first))
  Instruction.interpret
    (.storePart (p.store first.other) rt (offset first.other) (base first.other))

section Pair

variable {first : Side} {base : Side → Gpr} {offset : Side → UInt16}

/-- The partial stores of a pair for the value at an address, in either order, store the low bytes
of the register there. -/
theorem exists_stores (rt : Gpr)
    (haddress : ∀ side, m.core.addressOf (base side) (offset side) = p.point side a)
    (hmemory : ∀ side, m.bus.Writable (p.point side a)) :
    ∃ m', (p.stores first rt base offset).run m = .done () m' ∧
      Machine.SameButMemory { m with core := { m.core with pc := m.core.pc + 8 } } m' ∧
      m.Deposits m' a p.bytes (m.core.double rt).toNat fun _ => True := by
  obtain ⟨m₁, hrun, hsame, hdeposits⟩ := exists_storePart (haddress first) (hmemory first) rt
  have haddress₁ : m₁.core.addressOf (base first.other) (offset first.other) =
      p.point first.other a := by
    rw [← haddress first.other, hsame.core]
    rfl
  have hdouble : m₁.core.double rt = m.core.double rt := by
    rw [hsame.core]
    rfl
  obtain ⟨m', hrun', hsame', hdeposits'⟩ :=
    exists_storePart haddress₁ ((hmemory first.other).congr m₁.bus) rt
  rw [hdouble] at hdeposits'
  refine ⟨m', (run_bind_done hrun).trans hrun', ⟨?_, ?_⟩, ?_⟩
  · rw [hsame'.core, hsame.core]
    simp only [UInt32.add_assoc]
    rfl
  · rw [hsame'.bus, hsame.bus]
  · have hlength : p.bytes ≤ 8 := by rcases p.bytes_cases with h | h <;> omega
    exact (hdeposits.trans hdeposits' hlength).congr fun i hi => iff_true_intro (moves_or first hi)

end Pair

/-- **A pair of partial stores is an unaligned store.** A partial store at an address in memory that
can be written changes only bytes of the block of the address, up to it or from it on. Let the
effective addresses of the left and the right partial store of a width be the last and the first
byte of the value at an address, both in such memory. Executed in either order they put the low
bytes of the register at that address and the ones after it, and change no other cell of memory and
nothing else but the program counter and the journal. A pair of partial loads for the same address,
in either order and to any register but the zero register, then loads what was stored, a word
sign-extended. -/
theorem unaligned_store (p : PairWidth) (rt : Gpr) (m : Machine) :
    (∀ side base offset, m.bus.Writable (m.core.addressOf base offset) →
      ∃ m', (Instruction.interpret (.storePart (p.store side) rt offset base)).run m = .done () m' ∧
        Machine.SameButMemory { m with core := { m.core with pc := m.core.pc + 4 } } m' ∧
        ∀ cell, (∀ x, p.Spans side (m.core.addressOf base offset) x → m.bus.cellAt? x ≠ some cell) →
          m'.byteAt cell = m.byteAt cell) ∧
    ∀ (first : Side) (a : UInt32) (base : Side → Gpr) (offset : Side → UInt16),
      (∀ side, m.core.addressOf (base side) (offset side) = p.point side a) →
      (∀ side, m.bus.Writable (p.point side a)) →
      ∃ m', (p.stores first rt base offset).run m = .done () m' ∧
        Machine.SameButMemory { m with core := { m.core with pc := m.core.pc + 8 } } m' ∧
        (m.Deposits m' a p.bytes (m.core.double rt).toNat fun _ => True) ∧
        ∀ (first' : Side) (rt' : Gpr) (base' : Side → Gpr) (offset' : Side → UInt16),
          rt' ≠ .zero → (∀ side, base' side ≠ rt') →
          (∀ side, m.core.addressOf (base' side) (offset' side) = p.point side a) →
          ∃ journal, (p.loads first' rt' base' offset').run m' = .done () { m' with
            core := { m'.core with pc := m'.core.pc + 8 }.setDouble rt' (p.fit (m.core.double rt))
            journal := journal } := by
  refine ⟨fun side base offset hmemory => ?_, fun first a base offset haddress hmemory => ?_⟩
  · obtain ⟨a, hpoint⟩ := p.exists_point side (m.core.addressOf base offset)
    rw [← hpoint] at hmemory ⊢
    obtain ⟨m', hrun, hsame, hdeposits⟩ := exists_storePart hpoint.symm hmemory rt
    exact ⟨m', hrun, hsame, fun cell hcell =>
      hdeposits.kept cell fun i hi hmoves => hcell _ (spans_of_moves hi hmoves)⟩
  · obtain ⟨m', hrun, hsame, hdeposits⟩ := exists_stores rt haddress hmemory
    refine ⟨m', hrun, hsame, hdeposits, fun first' rt' base' offset' hrt hbase haddress' => ?_⟩
    have haddress' : ∀ side, m'.core.addressOf (base' side) (offset' side) = p.point side a := by
      intro side
      rw [← haddress' side, hsame.core]
      rfl
    have hmemory' : ∀ side, (m'.bus.cellAt? (p.point side a)).isSome := by
      intro side
      obtain ⟨cell, hcell, -⟩ := (hmemory side).congr m'.bus
      exact Option.isSome_iff_exists.2 ⟨cell, hcell⟩
    obtain ⟨value, journal, hloads, hfit, hdigits⟩ := exists_loads hrt hbase haddress' hmemory'
    have hvalue : value = p.fit (m.core.double rt) :=
      eq_fit_of_digits hfit fun i hi => (hdigits i hi).trans (hdeposits.virtualByte_eq hi trivial)
    exact ⟨journal, hvalue ▸ hloads⟩

/-- A doubleword stored at an odd address, the right part first, and loaded from there. -/
theorem unaligned_store_double :
    let m : Machine := ⟨Core.initial.setWord ⟨8⟩ 0x1000, Bus.initial, .silent⟩
    let base : Side → Gpr := fun _ => ⟨8⟩
    let offset : Side → UInt16
      | .left => 8
      | .right => 1
    ∃ m', (double.stores .right ⟨8⟩ base offset).run m = .done () m' ∧
      (m.Deposits m' 0x1001 8 0x1000 fun _ => True) ∧
      ∃ journal, (double.loads .left ⟨9⟩ base offset).run m' = .done () { m' with
        core := { m'.core with pc := m'.core.pc + 8 }.setDouble ⟨9⟩ 0x1000
        journal := journal } := by
  intro m base offset
  have haddress : ∀ side,
      m.core.addressOf (base side) (offset side) = double.point side 0x1001 := by
    rintro (_ | _) <;> decide +kernel
  have hmemory : ∀ side, m.bus.Writable (double.point side 0x1001) := by
    rintro (_ | _)
    · exact ⟨⟨.main, 0x1008⟩, (Bus.cellAt?_eq ..).trans rfl, by decide⟩
    · exact ⟨⟨.main, 0x1001⟩, (Bus.cellAt?_eq ..).trans rfl, by decide⟩
  have hdouble : m.core.double ⟨8⟩ = 0x1000 := by decide +kernel
  obtain ⟨m', hrun, -, hdeposits, hloads⟩ :=
    (unaligned_store double ⟨8⟩ m).2 .right 0x1001 base offset haddress hmemory
  obtain ⟨journal, hload⟩ :=
    hloads .left ⟨9⟩ base offset (by decide) (fun _ => by decide) haddress
  rw [hdouble] at hdeposits hload
  exact ⟨m', hrun, hdeposits, journal, hload⟩

end PairWidth

end R5900
