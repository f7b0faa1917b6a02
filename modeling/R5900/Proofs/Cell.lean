import R5900.Proofs.Bus.Access

/-!
# Cells of memory and their addresses

The scratchpad, main memory, boot memory and the memory of the input/output processor are one store
of bytes. A virtual address names at most one cell of it (`Bus.cellAt?`), and several addresses can
name the same cell.

* `Bus.cellAt?_eq_some_iff`: what a virtual address names, told from the number that it is.
* `Bus.exists_cellAt?_iff`: which addresses name the same cell.
* `Bus.cellAt?_add`: from a named cell up to the end of its memory, the addresses run along.
-/

namespace R5900

/-! ## Cells -/

/-- A memory that virtual addresses reach. -/
inductive Store where
  | scratchpad | main | boot | iop
  deriving DecidableEq, Repr

/-- How many bytes a memory has. -/
def Store.size : Store → Nat
  | .scratchpad => scratchpadSize
  | .main => mainSize
  | .boot => bootSize
  | .iop => iopSize

/-- A byte of a memory. -/
structure Cell where
  store : Store
  offset : Nat
  deriving DecidableEq, Repr

/-- The cell that a route leads to, if it leads to a memory. -/
def Route.cell? : Route → Option Cell
  | .main offset => some ⟨.main, offset⟩
  | .boot offset => some ⟨.boot, offset⟩
  | .iop offset => some ⟨.iop, offset⟩
  | .device _ => none
  | .unmapped => none

/-- The cell that a virtual address names, if it names one. -/
def Bus.cellAt? (b : Bus) (a : UInt32) : Option Cell :=
  match Location.ofVirtual a with
  | .scratchpad offset => some ⟨.scratchpad, offset⟩
  | .bus address => (b.route address).cell?

/-! ## Addresses -/

/-- The virtual address lies in the window of the scratchpad. -/
def InScratchpad (n : Nat) : Prop := 0x70000000 ≤ n ∧ n < 0x70004000

/-- The low 29 bits of a virtual address, those of the uncached window shifted down first. -/
def physical (n : Nat) : Nat :=
  (if 0x30100000 ≤ n ∧ n < 0x32000000 then n - 0x10000000 else n) % 2 ^ 29

/-- The physical address lies in boot memory. -/
def InBoot (p : Nat) : Prop := 0x1FC00000 ≤ p ∧ p < 0x20000000

/-- The physical address lies in the memory of the input/output processor. -/
def InIop (p : Nat) : Prop := 0x1C000000 ≤ p ∧ p < 0x1C200000

instance (n : Nat) : Decidable (InScratchpad n) := inferInstanceAs (Decidable (_ ∧ _))
instance (n : Nat) : Decidable (InBoot n) := inferInstanceAs (Decidable (_ ∧ _))
instance (n : Nat) : Decidable (InIop n) := inferInstanceAs (Decidable (_ ∧ _))

/-- The cell that a number names as a virtual address. -/
def Cell.ofNat? (n : Nat) : Option Cell :=
  if InScratchpad n then some ⟨.scratchpad, n - 0x70000000⟩
  else if physical n < 0x10000000 then some ⟨.main, physical n % 2 ^ 25⟩
  else if InBoot (physical n) then some ⟨.boot, physical n % 2 ^ 22⟩
  else if InIop (physical n) then some ⟨.iop, physical n % 2 ^ 21⟩
  else none

theorem window_iff (a first last : UInt32) :
    (first ≤ a && a < last) = true ↔ first.toNat ≤ a.toNat ∧ a.toNat < last.toNat := by
  rw [Bool.and_eq_true, decide_eq_true_iff, decide_eq_true_iff, UInt32.le_iff_toNat_le,
    UInt32.lt_iff_toNat_lt]

namespace Bus

theorem cellAt?_of_bus (b : Bus) {a p : UInt32} (h : Location.ofVirtual a = .bus p) :
    b.cellAt? a =
      if p.toNat < 0x10000000 then some ⟨.main, p.toNat % 2 ^ 25⟩
      else if InBoot p.toNat then some ⟨.boot, p.toNat % 2 ^ 22⟩
      else if InIop p.toNat then some ⟨.iop, p.toNat % 2 ^ 21⟩
      else none := by
  have hmain : p < 0x10000000 ↔ p.toNat < 0x10000000 := UInt32.lt_iff_toNat_lt
  have hboot : (0x1FC00000 ≤ p && p < 0x20000000) = true ↔ InBoot p.toNat := window_iff ..
  have hiop : (0x1C000000 ≤ p && p < 0x1C200000) = true ↔ InIop p.toNat := window_iff ..
  rw [cellAt?, h]
  show (b.route p).cell? = _
  unfold route
  by_cases hp : p.toNat < 0x10000000
  · rw [if_pos (hmain.2 hp), if_pos hp, ← toNat_and_mask p 0x1FFFFFF 25 rfl]
    rfl
  · rw [if_neg (mt hmain.1 hp), if_neg hp]
    by_cases hp : InBoot p.toNat
    · rw [if_pos (hboot.2 hp), if_pos hp, ← toNat_and_mask p 0x3FFFFF 22 rfl]
      rfl
    · rw [if_neg (mt hboot.1 hp), if_neg hp]
      by_cases hp : InIop p.toNat
      · rw [if_pos (hiop.2 hp), if_pos hp, ← toNat_and_mask p 0x1FFFFF 21 rfl]
        rfl
      · rw [if_neg (mt hiop.1 hp), if_neg hp]
        cases unitAt? b.map p <;> rfl

theorem cellAt?_eq (b : Bus) (a : UInt32) : b.cellAt? a = Cell.ofNat? a.toNat := by
  have hscratchpad : (0x70000000 ≤ a && a < 0x70004000) = true ↔ InScratchpad a.toNat :=
    window_iff ..
  have huncached : (0x30100000 ≤ a && a < 0x32000000) = true ↔
      0x30100000 ≤ a.toNat ∧ a.toNat < 0x32000000 := window_iff ..
  unfold Cell.ofNat?
  by_cases hin : InScratchpad a.toNat
  · have hloc : Location.ofVirtual a = .scratchpad (a.toNat - 0x70000000) := by
      rw [Location.ofVirtual, if_pos (hscratchpad.2 hin)]
      exact congrArg _ (toNat_sub_of_window (hscratchpad.2 hin)).2.2
    rw [if_pos hin, cellAt?, hloc]
  · obtain ⟨p, hloc, hp⟩ : ∃ p, Location.ofVirtual a = .bus p ∧ p.toNat = physical a.toNat := by
      rw [Location.ofVirtual, if_neg (mt hscratchpad.1 hin), physical]
      by_cases hwindow : 0x30100000 ≤ a.toNat ∧ a.toNat < 0x32000000
      · refine ⟨_, if_pos (huncached.2 hwindow), ?_⟩
        have hle : (0x10000000 : UInt32) ≤ a :=
          UInt32.le_iff_toNat_le.2 (Nat.le_trans (by decide) hwindow.1)
        rw [if_pos hwindow, toNat_and_mask _ 0x1FFFFFFF 29 rfl, UInt32.toNat_sub_of_le _ _ hle]
        rfl
      · refine ⟨_, if_neg (mt huncached.1 hwindow), ?_⟩
        rw [if_neg hwindow, toNat_and_mask _ 0x1FFFFFFF 29 rfl]
    rw [if_neg hin, b.cellAt?_of_bus hloc, hp]

end Bus

namespace Cell

/-- The number names the cell as a virtual address. -/
def NamedBy (cell : Cell) (n : Nat) : Prop :=
  match cell.store with
  | .scratchpad => InScratchpad n ∧ cell.offset = n - 0x70000000
  | .main => ¬InScratchpad n ∧ physical n < 0x10000000 ∧ cell.offset = physical n % 2 ^ 25
  | .boot => ¬InScratchpad n ∧ InBoot (physical n) ∧ cell.offset = physical n % 2 ^ 22
  | .iop => ¬InScratchpad n ∧ InIop (physical n) ∧ cell.offset = physical n % 2 ^ 21

theorem ofNat?_eq_some_iff {cell : Cell} {n : Nat} : ofNat? n = some cell ↔ cell.NamedBy n := by
  constructor
  · intro h
    unfold ofNat? at h
    split at h
    · rename_i hin
      cases h
      exact ⟨hin, rfl⟩
    · rename_i hout
      split at h
      · rename_i hmain
        cases h
        exact ⟨hout, hmain, rfl⟩
      · split at h
        · rename_i hboot
          cases h
          exact ⟨hout, hboot, rfl⟩
        · split at h
          · rename_i hiop
            cases h
            exact ⟨hout, hiop, rfl⟩
          · cases h
  · obtain ⟨store, offset⟩ := cell
    intro h
    unfold ofNat?
    cases store with
    | scratchpad =>
      obtain ⟨hin, hoffset⟩ := h
      rw [if_pos hin, ← hoffset]
    | main =>
      obtain ⟨hout, hmain, hoffset⟩ := h
      rw [if_neg hout, if_pos hmain, ← hoffset]
    | boot =>
      obtain ⟨hout, hboot, hoffset⟩ := h
      have hmain : ¬physical n < 0x10000000 := by
        unfold InBoot at hboot
        omega
      rw [if_neg hout, if_neg hmain, if_pos hboot, ← hoffset]
    | iop =>
      obtain ⟨hout, hiop, hoffset⟩ := h
      have hother : ¬physical n < 0x10000000 ∧ ¬InBoot (physical n) := by
        unfold InIop at hiop
        unfold InBoot
        omega
      rw [if_neg hout, if_neg hother.1, if_neg hother.2, if_pos hiop, ← hoffset]

/-- Below the end of a memory, the next bytes have the next physical addresses. -/
theorem physical_add {n i : Nat} (hn : n < 2 ^ 32)
    (h : physical n < 0x10000000 ∧ physical n % 2 ^ 25 + i < 2 ^ 25 ∨
      InBoot (physical n) ∧ physical n % 2 ^ 22 + i < 2 ^ 22 ∨
      InIop (physical n) ∧ physical n % 2 ^ 21 + i < 2 ^ 21) :
    n + i < 2 ^ 32 ∧ ¬InScratchpad (n + i) ∧ physical (n + i) = physical n + i := by
  unfold InBoot InIop physical at h
  unfold InScratchpad physical
  split at h <;> split <;> omega

/-- The cells after one that a number names, up to the end of the memory, are named by the numbers
after it. -/
theorem NamedBy.add {cell : Cell} {n i : Nat} (h : cell.NamedBy n) (hn : n < 2 ^ 32)
    (hfit : cell.offset + i < cell.store.size) :
    n + i < 2 ^ 32 ∧ NamedBy ⟨cell.store, cell.offset + i⟩ (n + i) := by
  obtain ⟨store, offset⟩ := cell
  cases store with
  | scratchpad =>
    obtain ⟨hin, hoffset⟩ := h
    have hlt : offset + i < 16384 := hfit
    dsimp only at hoffset
    unfold NamedBy InScratchpad at *
    dsimp only
    omega
  | main =>
    obtain ⟨-, hmain, hoffset⟩ := h
    have hlt : physical n % 2 ^ 25 + i < 2 ^ 25 := hoffset ▸ hfit
    obtain ⟨hlast, hout, hnext⟩ := physical_add hn (.inl ⟨hmain, hlt⟩)
    refine ⟨hlast, hout, ?_, ?_⟩
    · omega
    · dsimp only at hoffset ⊢
      omega
  | boot =>
    obtain ⟨-, hboot, hoffset⟩ := h
    have hlt : physical n % 2 ^ 22 + i < 2 ^ 22 := hoffset ▸ hfit
    obtain ⟨hlast, hout, hnext⟩ := physical_add hn (.inr (.inl ⟨hboot, hlt⟩))
    refine ⟨hlast, hout, ?_, ?_⟩
    · unfold InBoot at *
      omega
    · dsimp only at hoffset ⊢
      omega
  | iop =>
    obtain ⟨-, hiop, hoffset⟩ := h
    have hlt : physical n % 2 ^ 21 + i < 2 ^ 21 := hoffset ▸ hfit
    obtain ⟨hlast, hout, hnext⟩ := physical_add hn (.inr (.inr ⟨hiop, hlt⟩))
    refine ⟨hlast, hout, ?_, ?_⟩
    · unfold InIop at *
      omega
    · dsimp only at hoffset ⊢
      omega

end Cell

/-- The virtual addresses name the same byte: the same byte of the scratchpad, or outside its window
bytes of main memory at a distance of a multiple of 32 MiB, or the same byte of boot memory or of
the memory of the input/output processor. -/
def SameByte (n n' : Nat) : Prop :=
  InScratchpad n ∧ InScratchpad n' ∧ n = n' ∨
    ¬InScratchpad n ∧ ¬InScratchpad n' ∧
      (physical n < 0x10000000 ∧ physical n' < 0x10000000 ∧
          physical n % 2 ^ 25 = physical n' % 2 ^ 25 ∨
        InBoot (physical n) ∧ InBoot (physical n') ∧ physical n = physical n' ∨
        InIop (physical n) ∧ InIop (physical n') ∧ physical n = physical n')

theorem Cell.exists_namedBy_iff (n n' : Nat) :
    (∃ cell : Cell, cell.NamedBy n ∧ cell.NamedBy n') ↔ SameByte n n' := by
  constructor
  · rintro ⟨⟨store, offset⟩, h, h'⟩
    cases store with
    | scratchpad =>
      obtain ⟨⟨hle, hlt⟩, hoffset⟩ := h
      obtain ⟨⟨hle', hlt'⟩, hoffset'⟩ := h'
      dsimp only at hoffset hoffset'
      exact .inl ⟨⟨hle, hlt⟩, ⟨hle', hlt'⟩, by omega⟩
    | main =>
      obtain ⟨hout, hmain, hoffset⟩ := h
      obtain ⟨hout', hmain', hoffset'⟩ := h'
      exact .inr ⟨hout, hout', .inl ⟨hmain, hmain', hoffset.symm.trans hoffset'⟩⟩
    | boot =>
      obtain ⟨hout, ⟨hle, hlt⟩, hoffset⟩ := h
      obtain ⟨hout', ⟨hle', hlt'⟩, hoffset'⟩ := h'
      dsimp only at hoffset hoffset'
      exact .inr ⟨hout, hout', .inr (.inl ⟨⟨hle, hlt⟩, ⟨hle', hlt'⟩, by omega⟩)⟩
    | iop =>
      obtain ⟨hout, ⟨hle, hlt⟩, hoffset⟩ := h
      obtain ⟨hout', ⟨hle', hlt'⟩, hoffset'⟩ := h'
      dsimp only at hoffset hoffset'
      exact .inr ⟨hout, hout', .inr (.inr ⟨⟨hle, hlt⟩, ⟨hle', hlt'⟩, by omega⟩)⟩
  · rintro (⟨hin, hin', rfl⟩ | ⟨hout, hout', ⟨hmain, hmain', heq⟩ | ⟨hboot, hboot', heq⟩ |
      ⟨hiop, hiop', heq⟩⟩)
    · exact ⟨⟨.scratchpad, n - 0x70000000⟩, ⟨hin, rfl⟩, ⟨hin, rfl⟩⟩
    · exact ⟨⟨.main, physical n % 2 ^ 25⟩, ⟨hout, hmain, rfl⟩, ⟨hout', hmain', heq⟩⟩
    · exact ⟨⟨.boot, physical n % 2 ^ 22⟩, ⟨hout, hboot, rfl⟩, ⟨hout', hboot', heq ▸ rfl⟩⟩
    · exact ⟨⟨.iop, physical n % 2 ^ 21⟩, ⟨hout, hiop, rfl⟩, ⟨hout', hiop', heq ▸ rfl⟩⟩

namespace Bus

theorem cellAt?_congr (b b' : Bus) (a : UInt32) : b'.cellAt? a = b.cellAt? a := by
  rw [cellAt?_eq, cellAt?_eq]

theorem cellAt?_eq_some_iff (b : Bus) {a : UInt32} {cell : Cell} :
    b.cellAt? a = some cell ↔ cell.NamedBy a.toNat := by
  rw [cellAt?_eq, Cell.ofNat?_eq_some_iff]

/-- **Which addresses name the same cell.** -/
theorem exists_cellAt?_iff (b : Bus) (a a' : UInt32) :
    (∃ cell, b.cellAt? a = some cell ∧ b.cellAt? a' = some cell) ↔ SameByte a.toNat a'.toNat := by
  simp only [cellAt?_eq_some_iff, Cell.exists_namedBy_iff]

/-- The bytes of an access that starts at a cell are the cells from there up. -/
theorem cellAt?_add {b : Bus} {a : UInt32} {cell : Cell} (h : b.cellAt? a = some cell) {i : Nat}
    (hfit : cell.offset + i < cell.store.size) :
    b.cellAt? (a + UInt32.ofNat i) = some ⟨cell.store, cell.offset + i⟩ := by
  obtain ⟨hlt, hnamed⟩ := Cell.NamedBy.add (b.cellAt?_eq_some_iff.1 h) a.toNat_lt hfit
  have hi : (UInt32.ofNat i).toNat = i := UInt32.toNat_ofNat_of_lt' (by
    show i < 2 ^ 32
    omega)
  have hsum : (a + UInt32.ofNat i).toNat = a.toNat + i := by
    rw [UInt32.toNat_add, hi, Nat.mod_eq_of_lt hlt]
  rwa [cellAt?_eq_some_iff, hsum]

end Bus

end R5900
