import R5900.Proofs.Instruction.Encoder

/-!
# Decoding loses and confuses nothing

A word selects at most one kind of instruction, and it is decoded to the instruction of that kind
with the operands that it has in their fields.

* `Kind.decode_of_selectors`: a word with the selectors of a kind is decoded to it. The proof goes
  through the kinds, one table of the decoder after the other.
* `Instruction.decode_selected`: the tables list nothing else. The proof goes through the rows.
* `Instruction.decode_eq_iff`: the words of an instruction.
* `Instruction.decode_encode`: the decoder takes every encoding back to its instruction.
* `Instruction.decode_faithful`: what this means for any word.
-/

namespace R5900

open Encoding Instruction

/-! ## Operands -/

-- A register is its index.
attribute [ext] Gpr ControlReg Fpr

namespace Encoding

variable (w : UInt32)

theorem number_rs : number (rs w).index = Field.rs.read w := number_ofNat (Field.rs.holds_read w)

theorem number_rt : number (rt w).index = Field.rt.read w := number_ofNat (Field.rt.holds_read w)

theorem number_rd : number (rd w).index = Field.rd.read w := number_ofNat (Field.rd.holds_read w)

theorem number_cd : number (cd w).index = Field.rd.read w := number_ofNat (Field.rd.holds_read w)

theorem number_ft : number (ft w).index = Field.rt.read w := number_ofNat (Field.rt.holds_read w)

theorem number_fs : number (fs w).index = Field.rd.read w := number_ofNat (Field.rd.holds_read w)

theorem number_fd : number (fd w).index = Field.sa.read w := number_ofNat (Field.sa.holds_read w)

theorem toUInt32_sa : (sa w).toUInt32 = Field.sa.read w := by
  refine UInt32.toNat_inj.1 ?_
  rw [UInt8.toNat_toUInt32, sa, UInt32.toNat_toUInt8]
  exact Nat.mod_eq_of_lt (Nat.lt_trans (Field.sa.holds_read w) (by decide))

theorem sa_lt : sa w < 32 := by
  have hread := Field.sa.holds_read w
  rw [← toUInt32_sa, Field.Holds, UInt8.toNat_toUInt32] at hread
  exact UInt8.lt_iff_toNat_lt.2 hread

theorem toUInt32_imm16 : (imm16 w).toUInt32 = Field.imm16.read w := by
  refine UInt32.toNat_inj.1 ?_
  rw [UInt16.toNat_toUInt32, imm16, UInt32.toNat_toUInt16]
  exact Nat.mod_eq_of_lt (Field.imm16.holds_read w)

theorem number_inj {index index' : Fin 32} : number index = number index' ↔ index = index' :=
  ⟨fun h => by rw [← ofNat_number index, h, ofNat_number], congrArg number⟩

end Encoding

namespace Kind

variable (k : Kind) (w : UInt32)

@[simp] theorem kind?_read : (k.read w).kind? = some k := by
  cases k <;> rfl

theorem values_read : (k.read w).values = k.operandFields.map (·.read w) := by
  cases k
  case jump link => rfl
  all_goals simp [read, values, operands, Operand.value, operandFields, number_rs, number_rt,
    number_rd, number_cd, number_ft, number_fs, number_fd, toUInt32_sa, toUInt32_imm16]

theorem encodable_read : (k.read w).Encodable := by
  cases k
  case shift op => exact sa_lt w
  case jump link => exact Field.imm26.holds_read w
  all_goals trivial

end Kind

/-- A word with the values of the operands in their fields reads as the instruction. -/
theorem Kind.read_eq {i : Instruction} {k : Kind} {w : UInt32} (hk : i.kind? = some k)
    (h : i.values = k.operandFields.map (·.read w)) : k.read w = i := by
  rw [← k.values_read] at h
  cases i <;> cases hk <;>
    simp_all [Kind.read, values, operands, Operand.value, number_inj, Gpr.ext_iff,
      ControlReg.ext_iff, Fpr.ext_iff, UInt8.toUInt32_inj, UInt16.toUInt32_inj]

/-! ## Tables -/

namespace Encoding

/-- The word has the values in their fields. -/
def Matches (w : UInt32) (contents : List (Field × UInt32)) : Prop :=
  ∀ p ∈ contents, p.1.read w = p.2

variable {w c d : UInt32} {contents : List (Field × UInt32)}

theorem matches_iff_map : Matches w contents ↔
    contents.map (fun p => p.1.read w) = contents.map Prod.snd := List.map_inj_left.symm

theorem matches_zip {fields : List Field} {values : List UInt32}
    (h : fields.length = values.length) :
    Matches w (fields.zip values) ↔ fields.map (·.read w) = values := by
  have hread : (fields.zip values).map (fun p => p.1.read w) =
      ((fields.zip values).map Prod.fst).map (·.read w) := by
    rw [List.map_map]
    rfl
  rw [matches_iff_map, hread, List.map_fst_zip (Nat.le_of_eq h),
    List.map_snd_zip (Nat.le_of_eq h.symm)]

theorem matches_primary : Matches w (primary c) ↔ opcode w = c := List.forall_mem_singleton

theorem matches_special : Matches w (special c) ↔ opcode w = 0x00 ∧ function w = c :=
  List.forall_mem_cons.trans (and_congr_right' List.forall_mem_singleton)

theorem matches_regimm : Matches w (regimm c) ↔ opcode w = 0x01 ∧ rtField w = c :=
  List.forall_mem_cons.trans (and_congr_right' List.forall_mem_singleton)

theorem matches_multimedia : Matches w (multimedia c) ↔ opcode w = 0x1C ∧ function w = c :=
  List.forall_mem_cons.trans (and_congr_right' List.forall_mem_singleton)

theorem matches_parallelOperation : Matches w (parallelOperation c d) ↔
    opcode w = 0x1C ∧ function w = c ∧ saField w = d :=
  List.forall_mem_cons.trans (and_congr_right'
    (List.forall_mem_cons.trans (and_congr_right' List.forall_mem_singleton)))

theorem matches_controlMove : Matches w (controlMove c) ↔ opcode w = 0x10 ∧ rsField w = c :=
  List.forall_mem_cons.trans (and_congr_right' List.forall_mem_singleton)

theorem matches_controlOperation : Matches w (controlOperation c) ↔
    opcode w = 0x10 ∧ rsField w = 0x10 ∧ function w = c :=
  List.forall_mem_cons.trans (and_congr_right'
    (List.forall_mem_cons.trans (and_congr_right' List.forall_mem_singleton)))

theorem matches_floatMove : Matches w (floatMove c) ↔ opcode w = 0x11 ∧ rsField w = c :=
  List.forall_mem_cons.trans (and_congr_right' List.forall_mem_singleton)

theorem matches_floatBranch : Matches w (floatBranch c) ↔
    opcode w = 0x11 ∧ rsField w = 0x08 ∧ rtField w = c :=
  List.forall_mem_cons.trans (and_congr_right'
    (List.forall_mem_cons.trans (and_congr_right' List.forall_mem_singleton)))

theorem matches_floatOperation : Matches w (floatOperation c d) ↔
    opcode w = 0x11 ∧ rsField w = c ∧ function w = d :=
  List.forall_mem_cons.trans (and_congr_right'
    (List.forall_mem_cons.trans (and_congr_right' List.forall_mem_singleton)))

end Encoding

namespace Instruction

variable {w : UInt32}

/-! The words of a primary opcode with a table of its own are decoded by this table. -/

theorem decode_special (h : opcode w = 0x00) : decode w = decodeSpecial w := by
  rw [decode, h]
  rfl

theorem decode_regimm (h : opcode w = 0x01) : decode w = decodeRegimm w := by
  rw [decode, h]
  rfl

theorem decode_control (h : opcode w = 0x10) : decode w = decodeControl w := by
  rw [decode, h]
  rfl

theorem decode_float (h : opcode w = 0x11) : decode w = decodeFloat w := by
  rw [decode, h]
  rfl

theorem decode_multimedia (h : opcode w = 0x1C) : decode w = decodeMultimedia w := by
  rw [decode, h]
  rfl

end Instruction

namespace Kind

variable {w : UInt32}

/-- A word with the selectors of a kind is decoded to an instruction of this kind. -/
theorem decode_of_selectors {k : Kind} (h : Matches w k.selectors) : decode w = k.read w := by
  -- The layout of a kind says which table its word leads to, and with which values.
  cases k with
  | shift op | shiftBy op | alu op | trap op =>
    obtain ⟨ho, hf⟩ := matches_special.1 h
    cases op <;> rw [decode_special ho, decodeSpecial, hf] <;> rfl
  | moveIf b =>
    obtain ⟨ho, hf⟩ := matches_special.1 h
    cases b <;> rw [decode_special ho, decodeSpecial, hf] <;> rfl
  | moveFromShiftAmount | moveToShiftAmount | syscall | breakpoint | jumpRegister
  | jumpLinkRegister =>
    obtain ⟨ho, hf⟩ := matches_special.1 h
    rw [decode_special ho, decodeSpecial, hf]
    rfl
  | moveFromResult half pipe | moveToResult half pipe =>
    cases pipe with
    | zero =>
      obtain ⟨ho, hf⟩ := matches_special.1 h
      cases half <;> rw [decode_special ho, decodeSpecial, hf] <;> rfl
    | one =>
      obtain ⟨ho, hf⟩ := matches_multimedia.1 h
      cases half <;> rw [decode_multimedia ho, decodeMultimedia, hf] <;> rfl
  | multiply signed pipe | divide signed pipe =>
    cases pipe with
    | zero =>
      obtain ⟨ho, hf⟩ := matches_special.1 h
      cases signed <;> rw [decode_special ho, decodeSpecial, hf] <;> rfl
    | one =>
      obtain ⟨ho, hf⟩ := matches_multimedia.1 h
      cases signed <;> rw [decode_multimedia ho, decodeMultimedia, hf] <;> rfl
  | multiplyAdd signed pipe =>
    obtain ⟨ho, hf⟩ := matches_multimedia.1 h
    cases signed <;> cases pipe <;> rw [decode_multimedia ho, decodeMultimedia, hf] <;> rfl
  | leadingSigns =>
    obtain ⟨ho, hf⟩ := matches_multimedia.1 h
    rw [decode_multimedia ho, decodeMultimedia, hf]
    rfl
  | parallel op =>
    obtain ⟨ho, hf, hs⟩ := matches_parallelOperation.1 h
    cases op <;> rw [decode_multimedia ho, decodeMultimedia, hf, hs] <;> rfl
  | trapImm test =>
    obtain ⟨ho, hs⟩ := matches_regimm.1 h
    cases test <;> rw [decode_regimm ho, decodeRegimm, hs] <;> rfl
  | branchLink test likely =>
    obtain ⟨ho, hs⟩ := matches_regimm.1 h
    cases test <;> cases likely <;> rw [decode_regimm ho, decodeRegimm, hs] <;> rfl
  | aluImm op | load op | store op | loadPart op | storePart op =>
    have ho := matches_primary.1 h
    cases op <;> rw [decode, ho] <;> rfl
  | loadUpper | loadFloat | storeFloat =>
    rw [decode, matches_primary.1 h]
    rfl
  | jump link =>
    have ho := matches_primary.1 h
    cases link <;> rw [decode, ho] <;> rfl
  | branchPair test likely =>
    have ho := matches_primary.1 h
    cases test <;> cases likely <;> rw [decode, ho] <;> rfl
  | hint op =>
    cases op with
    | sync =>
      obtain ⟨ho, hf⟩ := matches_special.1 h
      rw [decode_special ho, decodeSpecial, hf]
      rfl
    | cache | pref =>
      rw [decode, matches_primary.1 h]
      rfl
  | branchZero test likely =>
    cases test with
    | lez | gtz =>
      have ho := matches_primary.1 h
      cases likely <;> rw [decode, ho] <;> rfl
    | ltz | gez =>
      obtain ⟨ho, hs⟩ := matches_regimm.1 h
      cases likely <;> rw [decode_regimm ho, decodeRegimm, hs] <;> rfl
  | branchFloat condition likely =>
    obtain ⟨ho, hs, ht⟩ := matches_floatBranch.1 h
    cases condition <;> cases likely <;> rw [decode_float ho, decodeFloat, hs, ht] <;> rfl
  | moveFromControl | moveToControl =>
    obtain ⟨ho, hs⟩ := matches_controlMove.1 h
    rw [decode_control ho, decodeControl, hs]
    rfl
  | tlb op =>
    obtain ⟨ho, hs, hf⟩ := matches_controlOperation.1 h
    cases op <;> rw [decode_control ho, decodeControl, hs, hf] <;> rfl
  | setInterruptEnable value =>
    obtain ⟨ho, hs, hf⟩ := matches_controlOperation.1 h
    cases value <;> rw [decode_control ho, decodeControl, hs, hf] <;> rfl
  | exceptionReturn =>
    obtain ⟨ho, hs, hf⟩ := matches_controlOperation.1 h
    rw [decode_control ho, decodeControl, hs, hf]
    rfl
  | moveFromFloat | moveFromFloatControl | moveToFloat | moveToFloatControl =>
    obtain ⟨ho, hs⟩ := matches_floatMove.1 h
    rw [decode_float ho, decodeFloat, hs]
    rfl
  | floatOp op | floatMap op | floatCompare op =>
    obtain ⟨ho, hs, hf⟩ := matches_floatOperation.1 h
    cases op <;> rw [decode_float ho, decodeFloat, hs, hf] <;> rfl

end Kind

namespace Instruction

variable {w : UInt32}

/-- The word has what selects instructions of this kind; an unknown word is this word. -/
def SelectedBy (i : Instruction) (w : UInt32) : Prop :=
  match i.kind? with
  | none => i = .unknown w
  | some k => Matches w k.selectors

theorem decodeSpecial_selected (h : opcode w = 0x00) : (decodeSpecial w).SelectedBy w := by
  unfold decodeSpecial
  split <;> first | rfl | exact matches_special.2 ⟨h, ‹_›⟩

theorem decodeRegimm_selected (h : opcode w = 0x01) : (decodeRegimm w).SelectedBy w := by
  unfold decodeRegimm
  split <;> first | rfl | exact matches_regimm.2 ⟨h, ‹_›⟩

theorem decodeControl_selected (h : opcode w = 0x10) : (decodeControl w).SelectedBy w := by
  unfold decodeControl
  split <;> try split
  all_goals first
    | rfl
    | exact matches_controlMove.2 ⟨h, ‹_›⟩
    | exact matches_controlOperation.2 ⟨h, ‹_›, ‹_›⟩

theorem decodeFloat_selected (h : opcode w = 0x11) : (decodeFloat w).SelectedBy w := by
  unfold decodeFloat
  split <;> try split
  all_goals first
    | rfl
    | exact matches_floatMove.2 ⟨h, ‹_›⟩
    | exact matches_floatBranch.2 ⟨h, ‹_›, ‹_›⟩
    | exact matches_floatOperation.2 ⟨h, ‹_›, ‹_›⟩

theorem decodeMultimedia_selected (h : opcode w = 0x1C) : (decodeMultimedia w).SelectedBy w := by
  unfold decodeMultimedia
  split <;> try split
  all_goals first
    | rfl
    | exact matches_multimedia.2 ⟨h, ‹_›⟩
    | exact matches_parallelOperation.2 ⟨h, ‹_›, ‹_›⟩

/-- What a word is decoded to is of a kind that the word selects, or is this word as unknown. -/
theorem decode_selected (w : UInt32) : (decode w).SelectedBy w := by
  unfold decode
  split <;> first
    | rfl
    | exact matches_primary.2 ‹_›
    | exact decodeSpecial_selected ‹_›
    | exact decodeRegimm_selected ‹_›
    | exact decodeControl_selected ‹_›
    | exact decodeFloat_selected ‹_›
    | exact decodeMultimedia_selected ‹_›

/-- A word is decoded to the instruction of some kind with the operands in their fields, or it is
unknown. -/
theorem decode_cases (w : UInt32) : decode w = .unknown w ∨ ∃ k : Kind, decode w = k.read w := by
  have hselected := decode_selected w
  unfold SelectedBy at hselected
  split at hselected
  case h_1 => exact .inl hselected
  case h_2 k _ => exact .inr ⟨k, k.decode_of_selectors hselected⟩

/-- The shift amount of the instruction, if it has one, is below 32. -/
def ShiftsFit : Instruction → Prop
  | .shift _ _ _ amount => amount < 32
  | _ => True

/-- Decoded shifts have amounts below 32. -/
theorem decode_shiftsFit (w : UInt32) : (decode w).ShiftsFit := by
  obtain h | ⟨k, h⟩ := decode_cases w
  · rw [h]
    trivial
  · rw [h]
    cases k <;> first | exact sa_lt w | trivial

theorem decode_eq_unknown (h : (decode w).kind? = none) : decode w = .unknown w :=
  (decode_cases w).resolve_right fun ⟨k, hk⟩ => by
    rw [hk, k.kind?_read] at h
    cases h

end Instruction

/-! ## Words and instructions -/

namespace Instruction

variable {i : Instruction} {k : Kind} {w w' : UInt32}

theorem matches_contents (hk : i.kind? = some k) : Matches w (i.contents k) ↔
    Matches w k.selectors ∧ k.operandFields.map (·.read w) = i.values :=
  List.forall_mem_append.trans (and_congr_right' (matches_zip (length_values hk)))

/-- The words that are decoded to an instruction are those that have its selectors and operands in
their fields. -/
theorem decode_eq_iff (hk : i.kind? = some k) : decode w = i ↔ Matches w (i.contents k) := by
  rw [matches_contents hk]
  constructor
  · rintro rfl
    have hselected := decode_selected w
    simp only [SelectedBy, hk] at hselected
    rw [k.decode_of_selectors hselected, k.values_read]
    exact ⟨hselected, rfl⟩
  · rintro ⟨hselectors, hvalues⟩
    rw [k.decode_of_selectors hselectors, Kind.read_eq hk hvalues.symm]

theorem kind?_of_encodable (hi : i.Encodable) : ∃ k, i.kind? = some k := by
  cases i with
  | unknown word => exact hi.elim
  | _ => exact ⟨_, rfl⟩

/-- **Every encodable instruction is what its encoding is decoded to.** -/
theorem decode_encode (hi : i.Encodable) : decode i.encode = i := by
  obtain ⟨k, hk⟩ := kind?_of_encodable hi
  rw [decode_eq_iff hk, encode_eq hk]
  exact fun p hp => read_assemble (wellPlaced_contents hi hk) hp

example : (Instruction.parallel .por ⟨2⟩ ⟨4⟩ ⟨5⟩).encode = 0x708514A9 := by decide

/-- A field that an instruction does not use is zero in its encoding. -/
theorem read_encode_of_disjoint (hi : i.Encodable) (hk : i.kind? = some k) {f : Field}
    (h : ∀ g ∈ k.fields, f.Disjoint g) : f.read i.encode = 0 := by
  rw [encode_eq hk]
  rw [← map_fst_contents hk, List.forall_mem_map] at h
  exact read_assemble_of_disjoint (wellPlaced_contents hi hk).holds h

end Instruction

namespace Kind

variable {k : Kind} {w w' : UInt32}

/-- A word selects the kind that another word selects if the two agree on its selectors. -/
theorem matches_selectors_iff (h : Matches w k.selectors) :
    Matches w' k.selectors ↔ ∀ p ∈ k.selectors, p.1.read w' = p.1.read w :=
  forall₂_congr fun p hp => by rw [h p hp]

theorem kind?_decode_iff : (decode w).kind? = some k ↔ Matches w k.selectors := by
  refine ⟨fun hk => ((matches_contents hk).1 ((decode_eq_iff hk).1 rfl)).1, fun h => ?_⟩
  rw [k.decode_of_selectors h, k.kind?_read]

theorem values_decode (h : (decode w).kind? = some k) :
    (decode w).values = k.operandFields.map (·.read w) := by
  rw [k.decode_of_selectors (kind?_decode_iff.1 h), k.values_read]

/-- An instruction is told by its kind and the values of its operands. -/
theorem decode_eq_of_values (h : (decode w).kind? = some k) (h' : (decode w').kind? = some k)
    (hvalues : (decode w).values = (decode w').values) : decode w = decode w' := by
  rw [values_decode h'] at hvalues
  rw [k.decode_of_selectors (kind?_decode_iff.1 h'), read_eq h hvalues]

/-- Two words are decoded to the same instruction if they agree on the fields of its kind. -/
theorem decode_eq_decode_iff (h : Matches w k.selectors) :
    decode w' = decode w ↔ ∀ f ∈ k.fields, f.read w' = f.read w := by
  rw [k.decode_of_selectors h, decode_eq_iff (k.kind?_read w), matches_contents (k.kind?_read w),
    matches_selectors_iff h, k.values_read, List.map_inj_left, fields, List.forall_mem_append,
    List.forall_mem_map]

/-- Decoding loses and confuses nothing that a word of a kind has in the fields of the kind. -/
structure Faithful (k : Kind) (w : UInt32) : Prop where
  /-- The primary opcode is one of the fields. -/
  opcode : Field.opcode ∈ k.fields
  /-- The kind is read from the selecting fields alone. -/
  kind : ∀ w', (decode w').kind? = some k ↔ ∀ p ∈ k.selectors, p.1.read w' = p.1.read w
  /-- The operands are what the word has in their fields. -/
  operands : (decode w).values = k.operandFields.map (·.read w)
  /-- A shift amount is below 32 and a jump target below `2 ^ 26`; that registers are numbered
  below 32 and immediates have sixteen bits is in their types. -/
  encodable : (decode w).Encodable
  /-- Decoding takes the encoding of the instruction back to it. -/
  roundTrip : decode (decode w).encode = decode w
  /-- The encoding has all fields of the instruction as the word has them. -/
  kept : ∀ f ∈ k.fields, f.read (decode w).encode = f.read w
  /-- Fields that the instruction does not use are zero in its encoding. -/
  cleared : ∀ f : Field, (∀ g ∈ k.fields, f.Disjoint g) → f.read (decode w).encode = 0
  /-- The words of the same instruction are those with the same values in its fields. -/
  separated : ∀ w', decode w' = decode w ↔ ∀ f ∈ k.fields, f.read w' = f.read w

theorem faithful_of_selectors (h : Matches w k.selectors) : k.Faithful w := by
  have hread := k.decode_of_selectors h
  have hkind := kind?_decode_iff.2 h
  have hencodable : (decode w).Encodable := hread ▸ k.encodable_read w
  have hround := decode_encode hencodable
  exact {
    opcode := k.opcode_mem_fields
    kind := fun w' => kind?_decode_iff.trans (matches_selectors_iff h)
    operands := values_decode hkind
    encodable := hencodable
    roundTrip := hround
    kept := (decode_eq_decode_iff h).1 hround
    cleared := fun f hf => read_encode_of_disjoint hencodable hkind hf
    separated := fun w' => decode_eq_decode_iff h }

end Kind

/-- **Decoding loses and confuses no operand**: a word is decoded faithfully to the instruction of
a kind that it selects, or no table lists it and it is kept whole as an unknown word. -/
theorem Instruction.decode_faithful (w : UInt32) :
    (∃ k : Kind, Matches w k.selectors ∧ k.Faithful w) ∨
      (∀ k : Kind, ¬ Matches w k.selectors) ∧ decode w = .unknown w := by
  cases hkind : (decode w).kind? with
  | none =>
    refine .inr ⟨fun k hk => ?_, decode_eq_unknown hkind⟩
    rw [Kind.kind?_decode_iff.2 hk] at hkind
    cases hkind
  | some k =>
    have hselectors := Kind.kind?_decode_iff.1 hkind
    exact .inl ⟨k, hselectors, Kind.faithful_of_selectors hselectors⟩

end R5900
