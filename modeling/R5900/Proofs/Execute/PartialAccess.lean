import R5900.Proofs.ByteMap
import R5900.Proofs.Execute.PartialStore
import R5900.Proofs.Execute.WordProgram
import R5900.Proofs.VirtualMemory

/-!
# Partial accesses byte by byte

A partial access moves bytes between a register and one block of memory, the aligned word or
doubleword that contains its effective address. Two of them make a pair: for the value at an address
`a`, the left one has its effective address at the last byte of the value and the right one at the
first (`PairWidth.point`). The byte `i` of the register stands for the address `a + i`, and each of
the two moves those bytes whose addresses lie in its block (`PairWidth.Moves`); together they move
all (`PairWidth.moves_or`).

* `PairWidth.place_point`: an access of a pair moves its bytes to and from the addresses that they
  stand for.
* `PairWidth.digit_loadLeft32` and its siblings: the shifts and masks of the partial loads take
  those bytes of memory.
* `Machine.read_block`: the block of an address that names a cell is read from memory.
-/

namespace R5900

/-! ## Bytes of words that are put together -/

section Place

variable {s i n : Nat}

/-- A number with the bits of another one from a byte up has its bytes there. -/
theorem digit_of_placedAbove {old new placed : Nat}
    (h : ∀ b < 8 * n, placed.testBit b =
      if b < 8 * s then old.testBit b else new.testBit (b - 8 * s)) (hi : i < n) :
    digit placed i = if i < s then digit old i else digit new (i - s) := by
  split
  · refine digit_eq_of_testBit fun j hj => ?_
    rw [h _ (by omega), if_pos (by omega)]
  · refine digit_eq_of_testBit fun j hj => ?_
    rw [h _ (by omega), if_neg (by omega)]
    congr 1
    omega

/-- A number that starts with the bits of another one from a byte on starts with its bytes. -/
theorem digit_of_placedBelow {old new placed : Nat}
    (h : ∀ b < 8 * n, placed.testBit b =
      if 8 * s + b < 8 * n then new.testBit (8 * s + b) else old.testBit b) (hi : i < n) :
    digit placed i = if s + i < n then digit new (s + i) else digit old i := by
  split
  · refine digit_eq_of_testBit fun j hj => ?_
    rw [h _ (by omega), if_pos (by omega)]
    congr 1
    omega
  · refine digit_eq_of_testBit fun j hj => ?_
    rw [h _ (by omega), if_neg (by omega)]

theorem digit_placeAbove32 (old new : UInt32) {amount : UInt32} (hamount : amount.toNat = 8 * s)
    (hs : s < 4) (hi : i < 4) : digit (placeAbove32 old new amount).toNat i =
      if i < s then digit old.toNat i else digit new.toNat (i - s) :=
  digit_of_placedAbove (fun b hb => by
    rw [testBit_placeAbove32 old new (by omega) hb, hamount]) hi

theorem digit_placeBelow32 (old new : UInt32) {amount : UInt32} (hamount : amount.toNat = 8 * s)
    (hs : s < 4) (hi : i < 4) : digit (placeBelow32 old new amount).toNat i =
      if s + i < 4 then digit new.toNat (s + i) else digit old.toNat i :=
  digit_of_placedBelow (fun b hb => by
    rw [testBit_placeBelow32 old new (by omega) hb, hamount]) hi

theorem digit_placeAbove64 (old new : UInt64) {amount : UInt64} (hamount : amount.toNat = 8 * s)
    (hs : s < 8) (hi : i < 8) : digit (placeAbove64 old new amount).toNat i =
      if i < s then digit old.toNat i else digit new.toNat (i - s) :=
  digit_of_placedAbove (fun b hb => by
    rw [testBit_placeAbove64 old new (by omega) hb, hamount]) hi

theorem digit_placeBelow64 (old new : UInt64) {amount : UInt64} (hamount : amount.toNat = 8 * s)
    (hs : s < 8) (hi : i < 8) : digit (placeBelow64 old new amount).toNat i =
      if s + i < 8 then digit new.toNat (s + i) else digit old.toNat i :=
  digit_of_placedBelow (fun b hb => by
    rw [testBit_placeBelow64 old new (by omega) hb, hamount]) hi

/-- The low bytes of a doubleword are those of its low word. -/
theorem digit_toUInt32 (x : UInt64) (hi : i < 4) : digit x.toUInt32.toNat i = digit x.toNat i := by
  rw [UInt64.toNat_toUInt32]
  exact digit_mod x.toNat hi

end Place

/-! ## Pairs of partial accesses -/

/-- The sizes of the values that pairs of partial accesses move. -/
inductive PairWidth where
  | word | double
  deriving DecidableEq, Repr

/-- The two partial accesses of a pair. -/
inductive Side where
  | left | right
  deriving DecidableEq, Repr

/-- The other access of the pair. -/
def Side.other : Side → Side
  | left => right
  | right => left

namespace PairWidth

/-- The width of the accesses to memory. -/
def width : PairWidth → Width
  | word => .word
  | double => .double

/-- The number of bytes of a value. -/
def bytes : PairWidth → Nat
  | word => 4
  | double => 8

/-- The bits of an address that count the bytes in its block. -/
def lowMask : PairWidth → UInt32
  | word => 3
  | double => 7

/-- The partial load of a side. -/
def load : PairWidth → Side → PartLoadOp
  | word, .left => .lwl
  | word, .right => .lwr
  | double, .left => .ldl
  | double, .right => .ldr

/-- The partial store of a side. -/
def store : PairWidth → Side → PartStoreOp
  | word, .left => .swl
  | word, .right => .swr
  | double, .left => .sdl
  | double, .right => .sdr

/-- The register with a value in it: a word is sign-extended. -/
def fit : PairWidth → UInt64 → UInt64
  | word, x => signExtend32 x.toUInt32
  | double, x => x

/-- The address of the block that contains a byte. -/
def block (p : PairWidth) (e : UInt32) : UInt32 := e &&& ~~~p.lowMask

/-- The effective address of a side for the value at an address: that of its last byte for the left
access and that of its first byte for the right one. -/
def point (p : PairWidth) (side : Side) (a : UInt32) : UInt32 :=
  match side with
  | .left => a + UInt32.ofNat (p.bytes - 1)
  | .right => a

/-- For the value at an address, the access of a side moves the byte `i`: its address lies in the
block of the access. -/
def Moves (p : PairWidth) (side : Side) (a : UInt32) (i : Nat) : Prop :=
  (a + UInt32.ofNat i).toNat / p.bytes = (p.point side a).toNat / p.bytes

/-- With the effective address at the byte `k` of its block, the byte of the block that the byte `i`
of the register goes to or comes from. -/
def blockByte? (p : PairWidth) (side : Side) (k i : Nat) : Option Nat :=
  match side with
  | .left => if p.bytes - 1 - k ≤ i then some (i - (p.bytes - 1 - k)) else none
  | .right => if k + i < p.bytes then some (k + i) else none

/-- The address of the byte of memory that the byte `i` of the register goes to or comes from in a
partial access, if it is moved. -/
def place (p : PairWidth) (side : Side) (e : UInt32) (i : Nat) : Option UInt32 :=
  (p.blockByte? side (e.toNat % p.bytes) i).map fun j => p.block e + UInt32.ofNat j

instance (p : PairWidth) (side : Side) (a : UInt32) (i : Nat) : Decidable (p.Moves side a i) :=
  inferInstanceAs (Decidable (_ = _))

variable {p : PairWidth} {side : Side} {a e : UInt32} {i : Nat}

theorem bytes_width (p : PairWidth) : p.width.bytes = p.bytes := by cases p <;> rfl

theorem bytes_cases (p : PairWidth) : p.bytes = 4 ∨ p.bytes = 8 := by
  cases p
  · exact .inl rfl
  · exact .inr rfl

theorem toNat_block (p : PairWidth) (e : UInt32) :
    (p.block e).toNat = e.toNat - e.toNat % p.bytes := by
  cases p
  · exact toNat_and_not_mask e 3 2 rfl
  · exact toNat_and_not_mask e 7 3 rfl

/-! ## Addresses of the bytes of a value -/

theorem toNat_add_ofNat (a : UInt32) (hi : i < 2 ^ 32) :
    (a + UInt32.ofNat i).toNat = (a.toNat + i) % 2 ^ 32 := by
  rw [UInt32.toNat_add, UInt32.toNat_ofNat_of_lt' hi]

theorem toNat_point_left (p : PairWidth) (a : UInt32) :
    (p.point .left a).toNat = (a.toNat + (p.bytes - 1)) % 2 ^ 32 :=
  toNat_add_ofNat a (by rcases p.bytes_cases with h | h <;> omega)

theorem blockByte?_lt {k j : Nat} (hi : i < p.bytes) (h : p.blockByte? side k i = some j) :
    j < p.bytes := by
  cases side <;> simp only [blockByte?, Option.ite_none_right_eq_some, Option.some.injEq] at h <;>
    omega

/-- A byte of the register that has a byte of the block is moved, and its address is that of the
byte of the block. -/
theorem address_of_blockByte? (hi : i < p.bytes) {j : Nat}
    (h : p.blockByte? side ((p.point side a).toNat % p.bytes) i = some j) :
    p.Moves side a i ∧ a + UInt32.ofNat i = p.block (p.point side a) + UInt32.ofNat j := by
  have hbytes := p.bytes_cases
  have hmax := a.toNat_lt
  have hj := blockByte?_lt hi h
  have hsum := toNat_add_ofNat a (i := i) (by omega)
  have hblock := p.toNat_block (p.point side a)
  rw [Moves, ← UInt32.toNat_inj, hsum, toNat_add_ofNat _ (by omega)]
  cases side with
  | left =>
    have hpoint := p.toNat_point_left a
    simp only [blockByte?, Option.ite_none_right_eq_some, Option.some.injEq] at h
    rcases hbytes with hbytes | hbytes <;> simp only [hbytes] at * <;> omega
  | right =>
    have hpoint : (p.point .right a).toNat = a.toNat := rfl
    simp only [blockByte?, Option.ite_none_right_eq_some, Option.some.injEq] at h
    rcases hbytes with hbytes | hbytes <;> simp only [hbytes] at * <;> omega

/-- A byte of the register that has no byte of the block is not moved. -/
theorem not_moves_of_blockByte? (hi : i < p.bytes)
    (h : p.blockByte? side ((p.point side a).toNat % p.bytes) i = none) : ¬p.Moves side a i := by
  have hbytes := p.bytes_cases
  have hmax := a.toNat_lt
  have hsum := toNat_add_ofNat a (i := i) (by omega)
  rw [Moves, hsum]
  cases side with
  | left =>
    have hpoint := p.toNat_point_left a
    simp only [blockByte?, ite_eq_right_iff, reduceCtorEq, imp_false] at h
    rcases hbytes with hbytes | hbytes <;> simp only [hbytes] at * <;> omega
  | right =>
    have hpoint : (p.point .right a).toNat = a.toNat := rfl
    simp only [blockByte?, ite_eq_right_iff, reduceCtorEq, imp_false] at h
    rcases hbytes with hbytes | hbytes <;> simp only [hbytes] at * <;> omega

/-- The two accesses of a pair move all bytes of a value. -/
theorem moves_or (side : Side) (hi : i < p.bytes) : p.Moves side a i ∨ p.Moves side.other a i := by
  have hbytes := p.bytes_cases
  have hmax := a.toNat_lt
  have hsum := toNat_add_ofNat a (i := i) (by omega)
  have hpoint := p.toNat_point_left a
  have hboth : p.Moves .left a i ∨ p.Moves .right a i := by
    rw [Moves, Moves, hsum, hpoint, point]
    rcases hbytes with hbytes | hbytes <;> simp only [hbytes] at * <;> omega
  cases side
  · exact hboth
  · exact hboth.symm

/-- For the value at an address, an access of the pair moves each byte to or from the address that
it stands for, or not at all. -/
theorem place_point (hi : i < p.bytes) : p.place side (p.point side a) i =
    if p.Moves side a i then some (a + UInt32.ofNat i) else none := by
  unfold place
  cases hplace : p.blockByte? side ((p.point side a).toNat % p.bytes) i with
  | none => rw [Option.map_none, if_neg (not_moves_of_blockByte? hi hplace)]
  | some j =>
    obtain ⟨hmoves, haddress⟩ := address_of_blockByte? hi hplace
    rw [Option.map_some, if_pos hmoves, haddress]

/-! ## What the shifts and masks move -/

section Amounts

variable (e : UInt32)

theorem toNat_and_three : (e &&& 3).toNat = e.toNat % 4 := toNat_and_mask e 3 2 rfl

theorem toNat_and_seven : (e &&& 7).toNat = e.toNat % 8 := toNat_and_mask e 7 3 rfl

/-- The shift of a left access to a word. -/
theorem toNat_leftShift32 : (24 - 8 * (e &&& 3)).toNat = 8 * (4 - 1 - e.toNat % 4) := by
  have hk := toNat_and_three e
  rw [PartStoreOp.toNat_sub_eight_mul (by omega), hk]
  omega

/-- The shift of a right access to a word. -/
theorem toNat_rightShift32 : (8 * (e &&& 3)).toNat = 8 * (e.toNat % 4) := by
  have hk := toNat_and_three e
  rw [PartStoreOp.toNat_eight_mul (by omega), hk]

/-- The shift of a left access to a doubleword. -/
theorem toNat_leftShift64 : (56 - 8 * (e &&& 7).toUInt64).toNat = 8 * (8 - 1 - e.toNat % 8) := by
  have hk := toNat_and_seven e
  rw [PartStoreOp.toNat_sub_eight_mul64 (by omega), hk]
  omega

/-- The shift of a right access to a doubleword. -/
theorem toNat_rightShift64 : (8 * (e &&& 7).toUInt64).toNat = 8 * (e.toNat % 8) := by
  have hk := toNat_and_seven e
  rw [PartStoreOp.toNat_eight_mul64 (by omega), hk]

end Amounts

section Loaded

/-- What a left access moves or keeps, byte by byte. -/
theorem elim_blockByte?_left (p : PairWidth) (k i : Nat) (kept : UInt8) (memory : Nat → UInt8) :
    (p.blockByte? .left k i).elim kept memory =
      if i < p.bytes - 1 - k then kept else memory (i - (p.bytes - 1 - k)) := by
  rw [blockByte?]
  split
  · rw [if_neg (by omega), Option.elim_some]
  · rw [if_pos (by omega), Option.elim_none]

/-- What a right access moves or keeps, byte by byte. -/
theorem elim_blockByte?_right (p : PairWidth) (k i : Nat) (kept : UInt8) (memory : Nat → UInt8) :
    (p.blockByte? .right k i).elim kept memory =
      if k + i < p.bytes then memory (k + i) else kept := by
  rw [blockByte?]
  split <;> rfl

variable (e : UInt32)

theorem digit_loadLeft32 (old memory : UInt32) (hi : i < 4) :
    digit (placeAbove32 old memory (24 - 8 * (e &&& 3))).toNat i =
      (blockByte? word .left (e.toNat % 4) i).elim (digit old.toNat i) (digit memory.toNat) :=
  (digit_placeAbove32 _ _ (toNat_leftShift32 e) (by omega) hi).trans
    (elim_blockByte?_left word ..).symm

theorem digit_loadRight32 (old memory : UInt32) (hi : i < 4) :
    digit (placeBelow32 old memory (8 * (e &&& 3))).toNat i =
      (blockByte? word .right (e.toNat % 4) i).elim (digit old.toNat i) (digit memory.toNat) :=
  (digit_placeBelow32 _ _ (toNat_rightShift32 e) (Nat.mod_lt _ (by decide)) hi).trans
    (elim_blockByte?_right word ..).symm

theorem digit_loadLeft64 (old memory : UInt64) (hi : i < 8) :
    digit (placeAbove64 old memory (56 - 8 * (e &&& 7).toUInt64)).toNat i =
      (blockByte? double .left (e.toNat % 8) i).elim (digit old.toNat i) (digit memory.toNat) :=
  (digit_placeAbove64 _ _ (toNat_leftShift64 e) (by omega) hi).trans
    (elim_blockByte?_left double ..).symm

theorem digit_loadRight64 (old memory : UInt64) (hi : i < 8) :
    digit (placeBelow64 old memory (8 * (e &&& 7).toUInt64)).toNat i =
      (blockByte? double .right (e.toNat % 8) i).elim (digit old.toNat i) (digit memory.toNat) :=
  (digit_placeBelow64 _ _ (toNat_rightShift64 e) (Nat.mod_lt _ (by decide)) hi).trans
    (elim_blockByte?_right double ..).symm

end Loaded

end PairWidth

/-! ## Blocks of memory -/

/-- What the cell holds that a virtual address names. -/
def Machine.virtualByte (m : Machine) (a : UInt32) : UInt8 := (m.bus.cellAt? a).elim 0 m.byteAt

/-- The windows of the address map are made of whole blocks. -/
theorem Cell.physical_block {n k : Nat} (hk : k = 4 ∨ k = 8) :
    (InScratchpad (n - n % k) ↔ InScratchpad n) ∧ physical (n - n % k) = physical n - n % k ∧
      physical n % k = n % k := by
  unfold InScratchpad physical
  rcases hk with rfl | rfl
  · refine ⟨by omega, ?_, ?_⟩
    · split <;> split <;> omega
    · split <;> omega
  · refine ⟨by omega, ?_, ?_⟩
    · split <;> split <;> omega
    · split <;> omega

/-- A block lies in the memory of any of its bytes. -/
theorem Bus.cellAt?_block (p : PairWidth) {b : Bus} {e : UInt32} {cell : Cell}
    (h : b.cellAt? e = some cell) :
    b.cellAt? (p.block e) = some ⟨cell.store, cell.offset - e.toNat % p.bytes⟩ ∧
      e.toNat % p.bytes ≤ cell.offset ∧
      cell.offset - e.toNat % p.bytes + p.bytes ≤ cell.store.size := by
  have hbytes := p.bytes_cases
  obtain ⟨hscratchpad, hphysical, hlow⟩ := Cell.physical_block (n := e.toNat) hbytes
  have hnamed := b.cellAt?_eq_some_iff.1 h
  rw [b.cellAt?_eq_some_iff, p.toNat_block]
  obtain ⟨store, offset⟩ := cell
  -- the memories are made of whole blocks too
  cases store <;>
    simp only [Cell.NamedBy, hscratchpad, hphysical, InBoot, InIop, Store.size, scratchpadSize,
      mainSize, bootSize, iopSize] at hnamed ⊢ <;>
    generalize physical e.toNat = n at * <;>
    unfold InScratchpad at hnamed ⊢ <;>
    rcases hbytes with hbytes | hbytes <;>
    rw [hbytes] at hlow ⊢ <;>
    omega

namespace Machine

variable {m : Machine} {e : UInt32} {cell : Cell}

/-- The bytes of a block are those of the cells from its first one up. -/
theorem virtualByte_block (p : PairWidth) (h : m.bus.cellAt? e = some cell) {j : Nat}
    (hj : j < p.bytes) :
    m.bus.cellAt? (p.block e + UInt32.ofNat j) =
        some ⟨cell.store, cell.offset - e.toNat % p.bytes + j⟩ ∧
      m.virtualByte (p.block e + UInt32.ofNat j) =
        m.byteAt ⟨cell.store, cell.offset - e.toNat % p.bytes + j⟩ := by
  obtain ⟨hcell, -, hfit⟩ := Bus.cellAt?_block p h
  have hbyte := Bus.cellAt?_add hcell (i := j) (by dsimp only; omega)
  exact ⟨hbyte, by rw [virtualByte, hbyte, Option.elim_some]⟩

/-- The block of an address that names a cell is read from memory. -/
theorem read_block (p : PairWidth) (h : m.bus.cellAt? e = some cell) :
    ∃ value journal, (Machine.read p.width (p.block e)).run m =
        .done value { m with journal := journal } ∧
      ∀ j < p.bytes, digit (p.width.number value) j =
        m.virtualByte (p.block e + UInt32.ofNat j) := by
  obtain ⟨hcell, -, hfit⟩ := Bus.cellAt?_block p h
  obtain ⟨value, journal, hread, hnumber⟩ :=
    read_of_cellAt? p.width hcell (by rw [p.bytes_width]; exact hfit)
  refine ⟨value, journal, hread, fun j hj => ?_⟩
  rw [hnumber, p.bytes_width, digit_ofDigitFn _ hj, (virtualByte_block p h hj).2]

theorem read_wordBlock (h : m.bus.cellAt? e = some cell) :
    ∃ (value : UInt32) (journal : Journal), (Machine.read .word (e &&& ~~~3)).run m =
        .done value { m with journal := journal } ∧
      ∀ j < 4, digit value.toNat j = m.virtualByte (PairWidth.word.block e + UInt32.ofNat j) := by
  obtain ⟨value, journal, hread, hdigits⟩ := read_block .word h
  refine ⟨value, journal, hread, fun j hj => ?_⟩
  rw [← hdigits j hj]
  exact congrArg (digit · j) (Width.number_word value).symm

theorem read_doubleBlock (h : m.bus.cellAt? e = some cell) :
    ∃ (value : UInt64) (journal : Journal), (Machine.read .double (e &&& ~~~7)).run m =
        .done value { m with journal := journal } ∧
      ∀ j < 8, digit value.toNat j = m.virtualByte (PairWidth.double.block e + UInt32.ofNat j) := by
  obtain ⟨value, journal, hread, hdigits⟩ := read_block .double h
  refine ⟨value, journal, hread, fun j hj => ?_⟩
  rw [← hdigits j hj]
  exact congrArg (digit · j) (Width.number_double value).symm

end Machine

end R5900
