import R5900.Instruction.Decode
import R5900.Proofs.BitField

/-!
# Fields of an instruction word

An instruction word is read by fields, some of which overlap: the immediate of sixteen bits stands
where other instructions have `rd`, the shift amount and the function. A word is put together from
values of fields that do not overlap, and each field then reads the value that was put there.

* `Encoding.Field`: the fields with their places, and what a word has in them.
* `Encoding.assemble`: the word with given values in given fields and zeros elsewhere.
* `Encoding.read_assemble`, `Encoding.read_assemble_of_disjoint`: what the fields of such a word
  read.
-/

namespace R5900

namespace Encoding

/-- A field of an instruction word. -/
inductive Field where
  | opcode | rs | rt | rd | sa | function | imm16 | imm26
  deriving DecidableEq, Repr

namespace Field

/-- The lowest position of a field. -/
def start : Field → UInt32
  | .opcode => 26
  | .rs => 21
  | .rt => 16
  | .rd => 11
  | .sa => 6
  | .function | .imm16 | .imm26 => 0

/-- How many bits a field has. -/
def length : Field → UInt32
  | .opcode | .function => 6
  | .rs | .rt | .rd | .sa => 5
  | .imm16 => 16
  | .imm26 => 26

/-- What a word has in a field. -/
def read (f : Field) (w : UInt32) : UInt32 := field32 w f.start f.length

/-- The value can stand in the field. -/
def Holds (f : Field) (value : UInt32) : Prop := value.toNat < 2 ^ f.length.toNat

instance (f : Field) (value : UInt32) : Decidable (f.Holds value) :=
  inferInstanceAs (Decidable (_ < _))

/-- The fields have no position in common. -/
def Disjoint (f g : Field) : Prop :=
  f.start.toNat + f.length.toNat ≤ g.start.toNat ∨ g.start.toNat + g.length.toNat ≤ f.start.toNat

instance (f g : Field) : Decidable (f.Disjoint g) := inferInstanceAs (Decidable (_ ∨ _))

theorem Disjoint.symm {f g : Field} (h : f.Disjoint g) : g.Disjoint f := Or.symm h

/-- Every field ends within the word. -/
theorem start_add_length_le (f : Field) : f.start.toNat + f.length.toNat ≤ 32 := by
  cases f <;> decide

theorem toNat_read (f : Field) (w : UInt32) :
    (f.read w).toNat = w.toNat / 2 ^ f.start.toNat % 2 ^ f.length.toNat :=
  toNat_field32 w (by cases f <;> decide) (by cases f <;> decide)

theorem testBit_read (f : Field) (w : UInt32) (i : Nat) : (f.read w).toNat.testBit i =
    (decide (i < f.length.toNat) && w.toNat.testBit (f.start.toNat + i)) := by
  rw [toNat_read, Nat.testBit_mod_two_pow, Nat.testBit_div_two_pow, Nat.add_comm]

theorem holds_read (f : Field) (w : UInt32) : f.Holds (f.read w) := by
  rw [Holds, toNat_read]
  exact Nat.mod_lt _ (Nat.two_pow_pos _)

theorem read_zero (f : Field) : f.read 0 = 0 := by
  cases f <;> rfl

theorem read_or (f : Field) (v w : UInt32) : f.read (v ||| w) = f.read v ||| f.read w := by
  refine UInt32.toNat_inj.1 (Nat.eq_of_testBit_eq fun i => ?_)
  simp only [testBit_read, UInt32.toNat_or, Nat.testBit_or, Bool.and_or_distrib_left]

/-- A bit of a value moved to the place of a field. -/
theorem testBit_place (f : Field) (value : UInt32) {i : Nat} (hi : i < 32) :
    (value <<< f.start).toNat.testBit i =
      (decide (f.start.toNat ≤ i) && value.toNat.testBit (i - f.start.toNat)) := by
  have hstart : f.start.toNat % 32 = f.start.toNat := by cases f <;> rfl
  rw [UInt32.toNat_shiftLeft, hstart, Nat.testBit_mod_two_pow, Nat.testBit_shiftLeft,
    decide_eq_true hi, Bool.true_and]

/-- A field reads the value that was moved to its place. -/
theorem read_place_self {f : Field} {value : UInt32} (h : f.Holds value) :
    f.read (value <<< f.start) = value := by
  refine UInt32.toNat_inj.1 (Nat.eq_of_testBit_eq fun i => ?_)
  have hfit := f.start_add_length_le
  rw [testBit_read]
  by_cases hi : i < f.length.toNat
  · rw [testBit_place f value (by omega), decide_eq_true hi, decide_eq_true (Nat.le_add_right ..),
      Bool.true_and, Bool.true_and, Nat.add_sub_cancel_left]
  · rw [decide_eq_false hi, Bool.false_and]
    exact (Nat.testBit_lt_two_pow (Nat.lt_of_lt_of_le h
      (Nat.pow_le_pow_right (by decide) (Nat.le_of_not_lt hi)))).symm

/-- A field without a position of another one reads zero where a value was moved to the place of
that one. -/
theorem read_place_of_disjoint {f g : Field} (hdisjoint : f.Disjoint g) {value : UInt32}
    (h : g.Holds value) : f.read (value <<< g.start) = 0 := by
  refine UInt32.toNat_inj.1 (Nat.eq_of_testBit_eq fun i => ?_)
  have hfit := f.start_add_length_le
  rw [testBit_read, UInt32.toNat_zero, Nat.zero_testBit, Bool.and_eq_false_imp]
  intro hi
  have hi : i < f.length.toNat := of_decide_eq_true hi
  rw [testBit_place g value (by omega), Bool.and_eq_false_imp]
  intro hle
  have hle : g.start.toNat ≤ f.start.toNat + i := of_decide_eq_true hle
  have hlength : g.length.toNat ≤ f.start.toNat + i - g.start.toNat := by
    rcases hdisjoint with hbefore | hafter <;> omega
  exact Nat.testBit_lt_two_pow (Nat.lt_of_lt_of_le h (Nat.pow_le_pow_right (by decide) hlength))

end Field

/-! ## Words put together from fields -/

/-- The word with each value in its field and zeros elsewhere. -/
def assemble : List (Field × UInt32) → UInt32
  | [] => 0
  | (f, value) :: rest => value <<< f.start ||| assemble rest

/-- Each value can stand in its field, and the fields have no position in common. -/
structure WellPlaced (contents : List (Field × UInt32)) : Prop where
  holds : ∀ p ∈ contents, p.1.Holds p.2
  disjoint : contents.Pairwise fun p q => p.1.Disjoint q.1

variable {contents : List (Field × UInt32)} {f : Field}

/-- A field that nothing was put into reads zero. -/
theorem read_assemble_of_disjoint (hholds : ∀ p ∈ contents, p.1.Holds p.2)
    (h : ∀ p ∈ contents, f.Disjoint p.1) : f.read (assemble contents) = 0 := by
  induction contents with
  | nil => exact f.read_zero
  | cons p rest ih =>
    have hrest := ih (fun q hq => hholds q (List.mem_cons_of_mem p hq))
      fun q hq => h q (List.mem_cons_of_mem p hq)
    rw [assemble, Field.read_or, hrest,
      Field.read_place_of_disjoint (h p List.mem_cons_self) (hholds p List.mem_cons_self)]
    rfl

/-- A field reads the value that was put into it. -/
theorem read_assemble (h : WellPlaced contents) {p : Field × UInt32} (hp : p ∈ contents) :
    p.1.read (assemble contents) = p.2 := by
  induction contents with
  | nil => cases hp
  | cons q rest ih =>
    obtain ⟨hfirst, hrest⟩ := List.pairwise_cons.1 h.disjoint
    have hholds := List.forall_mem_cons.1 h.holds
    rw [assemble, Field.read_or]
    rcases List.mem_cons.1 hp with rfl | hp
    · rw [Field.read_place_self hholds.1, read_assemble_of_disjoint hholds.2 hfirst,
        UInt32.or_zero]
    · rw [Field.read_place_of_disjoint (hfirst p hp).symm hholds.1, ih ⟨hholds.2, hrest⟩ hp,
        UInt32.zero_or]

end Encoding

end R5900
