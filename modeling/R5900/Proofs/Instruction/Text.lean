import R5900.Instruction.Text
import R5900.Proofs.Instruction.Decoding
import R5900.Proofs.Text
import Mathlib.Data.List.Nodup

/-!
# The text of an instruction tells it from all others

The words of a text are the mnemonic and the operands, in an order that depends on the instruction.
No two mnemonics or register names are alike (`names_checked`, the one fact that is checked name by
name) and numbers start with a digit, so the mnemonic is the one word that is a mnemonic, and each
other word is one operand and no other.

* `Operand.text_injective`: no two operands are written alike.
* `Written`: the layouts of a text, and `Written.words_eq`: what words they have.
* `Instruction.filter_words`: the mnemonic and the operands are found again among the words.
* `Instruction.text_decode_inj`: no two different decoded instructions are written alike.
-/

namespace R5900

open Instruction Text

/-! ## Mnemonics -/

/-- The mnemonic of the instructions of a kind. -/
def Kind.mnemonic : Kind → String
  | .shift op => op.mnemonic
  | .shiftBy op => op.mnemonic
  | .alu op => op.mnemonic
  | .aluImm op => op.mnemonic
  | .loadUpper => "lui"
  | .moveIf isZero => if isZero then "movz" else "movn"
  | .moveFromResult half pipe => "mf" ++ half.suffix pipe
  | .moveToResult half pipe => "mt" ++ half.suffix pipe
  | .multiply signed pipe => pipe.mnemonic "mult" signed
  | .multiplyAdd signed pipe => pipe.mnemonic "madd" signed
  | .divide signed pipe => pipe.mnemonic "div" signed
  | .moveFromShiftAmount => "mfsa"
  | .moveToShiftAmount => "mtsa"
  | .leadingSigns => "plzcw"
  | .parallel op => op.mnemonic
  | .syscall => "syscall"
  | .breakpoint => "break"
  | .hint op => op.mnemonic
  | .trap test => test.mnemonic
  | .trapImm test => test.immMnemonic
  | .jumpRegister => "jr"
  | .jumpLinkRegister => "jalr"
  | .jump link => if link then "jal" else "j"
  | .branchPair test likely => test.mnemonic ++ likelySuffix likely
  | .branchZero test likely => test.mnemonic ++ likelySuffix likely
  | .branchLink test likely => test.mnemonic ++ likelySuffix likely
  | .branchFloat condition likely =>
    (if condition then "bc1t" else "bc1f") ++ likelySuffix likely
  | .moveFromControl => "mfc0"
  | .moveToControl => "mtc0"
  | .tlb op => op.mnemonic
  | .exceptionReturn => "eret"
  | .setInterruptEnable value => if value then "ei" else "di"
  | .moveFromFloat => "mfc1"
  | .moveFromFloatControl => "cfc1"
  | .moveToFloat => "mtc1"
  | .moveToFloatControl => "ctc1"
  | .floatOp op => op.mnemonic
  | .floatMap op => op.mnemonic
  | .floatCompare test => test.mnemonic
  | .load op => op.mnemonic
  | .store op => op.mnemonic
  | .loadPart op => op.mnemonic
  | .storePart op => op.mnemonic
  | .loadFloat => "lwc1"
  | .storeFloat => "swc1"

/-- How an operand is written. -/
def Operand.text : Operand → String
  | .gpr r => r.name
  | .control r => r.name
  | .float r => r.name
  | .amount n => toString n.toNat
  | .number n => Text.hex n.toNat

namespace Instruction

/-- The mnemonic of the instructions of a kind, and what stands in its place without a kind. -/
def mnemonic (kind : Option Kind) : String := kind.elim "unknown" Kind.mnemonic

/-- How the operands are written; an unknown word has itself as one. -/
def operandTexts : Instruction → List String
  | .unknown word => [Text.address word]
  | i => i.operands.map Operand.text

end Instruction

/-! ## Names -/

/-- All mnemonics. -/
def mnemonics : List String := (none :: Kind.all.map some).map mnemonic

/-- The operands that are registers. -/
def Operand.registers : List Operand :=
  Gpr.all.map Operand.gpr ++ ControlReg.all.map Operand.control ++ Fpr.all.map Operand.float

/-- All mnemonics and the names of all registers. -/
def names : List String := mnemonics ++ Operand.registers.map Operand.text

/-- The characters of a text as the digits of a number. -/
def textCode (text : String) : Nat := text.toList.foldl (fun n c => n * 256 + c.toNat) 0

/-- What is checked name by name: no two names are alike, and each is a word that does not start
with a digit. Names are compared as numbers, which is much faster than as texts. -/
theorem names_checked : (names.map textCode).Nodup ∧
    ∀ name ∈ names, IsWord name ∧ ¬ StartsWithDigit name := by
  decide +kernel

/-- **No two mnemonics or register names are alike.** -/
theorem nodup_names : names.Nodup := List.Nodup.of_map textCode names_checked.1

theorem isWord_names : ∀ name ∈ names, IsWord name := fun name h => (names_checked.2 name h).1

theorem not_startsWithDigit_names : ∀ name ∈ names, ¬ StartsWithDigit name :=
  fun name h => (names_checked.2 name h).2

theorem mem_kinds (kind : Option Kind) : kind ∈ none :: Kind.all.map some := by
  cases kind with
  | none => exact List.mem_cons_self
  | some k => exact List.mem_cons_of_mem _ (List.mem_map_of_mem k.mem_all)

theorem mnemonic_mem (kind : Option Kind) : mnemonic kind ∈ mnemonics :=
  List.mem_map_of_mem (mem_kinds kind)

theorem mnemonic_mem_names (kind : Option Kind) : mnemonic kind ∈ names :=
  List.mem_append_left _ (mnemonic_mem kind)

/-- A mnemonic names the kind. -/
theorem mnemonic_injective : Function.Injective mnemonic := fun kind kind' h =>
  List.inj_on_of_nodup_map (List.nodup_append.1 nodup_names).1 (mem_kinds kind) (mem_kinds kind') h

/-- What starts with a digit is no mnemonic. -/
theorem not_mem_mnemonics_of_digit {text : String} (h : StartsWithDigit text) :
    text ∉ mnemonics :=
  fun hmem => not_startsWithDigit_names _ (List.mem_append_left _ hmem) h

namespace Operand

variable {o o' : Operand}

theorem text_mem_names (h : o ∈ registers) : o.text ∈ names :=
  List.mem_append_right _ (List.mem_map_of_mem h)

/-- An operand is a register, an amount or a number. -/
theorem register_or_number (o : Operand) :
    o ∈ registers ∨ (∃ n, o = .amount n) ∨ ∃ n, o = .number n := by
  cases o with
  | gpr r => simp [registers, Gpr.all]
  | control r => simp [registers, ControlReg.all]
  | float r => simp [registers, Fpr.all]
  | amount n => exact .inr (.inl ⟨n, rfl⟩)
  | number n => exact .inr (.inr ⟨n, rfl⟩)

theorem isWord_text (o : Operand) : IsWord o.text := by
  obtain hregister | ⟨n, rfl⟩ | ⟨n, rfl⟩ := o.register_or_number
  · exact isWord_names _ (text_mem_names hregister)
  · exact isWord_toString _
  · exact isWord_hex _

/-- The operands that are not registers are written with a digit first. -/
theorem startsWithDigit_text_iff : StartsWithDigit o.text ↔ o ∉ registers := by
  refine ⟨fun h hmem => not_startsWithDigit_names _ (text_mem_names hmem) h, fun h => ?_⟩
  obtain hregister | ⟨n, rfl⟩ | ⟨n, rfl⟩ := o.register_or_number
  · exact absurd hregister h
  · exact startsWithDigit_toString _
  · exact startsWithDigit_hex _

/-- No operand is written as a mnemonic. -/
theorem text_not_mem_mnemonics (o : Operand) : o.text ∉ mnemonics := by
  by_cases hmem : o ∈ registers
  · exact fun h =>
      (List.nodup_append.1 nodup_names).2.2 _ h _ (List.mem_map_of_mem hmem) rfl
  · exact not_mem_mnemonics_of_digit (startsWithDigit_text_iff.2 hmem)

/-- **No two operands are written alike.** -/
theorem text_injective : Function.Injective Operand.text := by
  intro o o' h
  have hiff : o ∈ registers ↔ o' ∈ registers := by
    rw [← not_iff_not, ← startsWithDigit_text_iff, ← startsWithDigit_text_iff, h]
  by_cases hmem : o ∈ registers
  · exact List.inj_on_of_nodup_map (List.nodup_append.1 nodup_names).2.1 hmem (hiff.1 hmem) h
  · obtain ⟨n, rfl⟩ | ⟨n, rfl⟩ := o.register_or_number.resolve_left hmem <;>
      obtain ⟨n', rfl⟩ | ⟨n', rfl⟩ := o'.register_or_number.resolve_left (mt hiff.2 hmem)
    · exact congrArg amount (UInt8.toNat_inj.1 (toString_inj h))
    · exact absurd h toString_ne_hex
    · exact absurd h.symm toString_ne_hex
    · exact congrArg number (UInt32.toNat_inj.1 (hex_inj h))

end Operand

/-! ## Layouts -/

theorem words_intercalate (operands : List String) :
    words (", ".intercalate operands) = operands.flatMap words := by
  induction operands with
  | nil => rfl
  | cons o rest ih =>
    cases rest with
    | nil => rw [String.intercalate_singleton, List.flatMap_singleton]
    | cons o' rest =>
      rw [String.intercalate_cons_cons, String.append_assoc, words_append_gap (by decide), ih]
      rfl

theorem words_statement (mnemonic : String) (operands : List String) :
    words (statement mnemonic operands) = words mnemonic ++ operands.flatMap words := by
  cases operands with
  | nil => simp [statement]
  | cons o rest =>
    rw [← words_intercalate, ← words_append_gap (by decide : IsGap " ")]
    rfl

theorem words_assignment (destination mnemonic : String) (operands : List String) :
    words (assignment destination mnemonic operands) =
      words destination ++ (words mnemonic ++ operands.flatMap words) := by
  rw [← words_statement, ← words_append_gap (by decide : IsGap " = ")]
  simp only [assignment, statement, String.append_assoc]

theorem words_memory (offset base : String) :
    words (offset ++ "(" ++ base ++ ")") = words offset ++ words base := by
  have hend : offset ++ "(" ++ base ++ ")" = offset ++ ("(" ++ (base ++ (")" ++ ""))) := by
    simp only [String.append_assoc, String.append_empty]
  rw [hend, words_append_gap (by decide), words_append_gap (by decide)]
  exact congrArg _ (List.append_nil _)

/-- The ways in which a mnemonic and operands are written. -/
inductive Written (mnemonic : String) : List String → String → Prop
  | bare : Written mnemonic [] mnemonic
  | statement (operands : List String) :
    Written mnemonic operands (statement mnemonic operands)
  | assignment (destination : String) (operands : List String) :
    Written mnemonic (destination :: operands) (assignment destination mnemonic operands)
  | load (destination offset base : String) :
    Written mnemonic [destination, offset, base]
      (assignment destination mnemonic [offset ++ "(" ++ base ++ ")"])
  | store (source offset base : String) :
    Written mnemonic [source, offset, base]
      (statement mnemonic [source, offset ++ "(" ++ base ++ ")"])

/-- Every text is written in one of the layouts. -/
theorem Instruction.text_written (i : Instruction) :
    Written (mnemonic i.kind?) i.operandTexts i.text := by
  cases i
  case unknown word =>
    have htext : text (.unknown word) = statement "unknown" [Text.address word] := by
      have hsplit : "unknown " = "unknown" ++ " " := rfl
      rw [text, hsplit, String.append_assoc]
      rfl
    rw [htext]
    exact .statement _
  case load | loadPart | loadFloat => exact .load _ _ _
  case store | storePart | storeFloat => exact .store _ _ _
  case syscall | breakpoint | hint | tlb | exceptionReturn | setInterruptEnable => exact .bare
  all_goals first | exact .statement _ | exact .assignment _ _

/-- Texts that are words are their own words. -/
theorem flatMap_words {texts : List String} (h : ∀ text ∈ texts, IsWord text) :
    texts.flatMap words = texts := by
  rw [List.flatMap_congr fun text htext => words_of_isWord (h text htext)]
  exact List.flatMap_singleton' texts

/-- The words of a written instruction are its operands, in their order, and somewhere among them
the mnemonic. -/
theorem Written.words_eq {mnemonic text : String} {operands : List String}
    (h : Written mnemonic operands text) (hmnemonic : IsWord mnemonic)
    (hoperands : ∀ o ∈ operands, IsWord o) : ∃ before after,
      words text = before ++ mnemonic :: after ∧ before ++ after = operands := by
  have hflat := flatMap_words hoperands
  cases h with
  | bare => exact ⟨[], [], words_of_isWord hmnemonic, rfl⟩
  | statement =>
    refine ⟨[], operands, ?_, rfl⟩
    rw [words_statement, words_of_isWord hmnemonic, hflat]
    rfl
  | assignment d rest =>
    refine ⟨words d, rest.flatMap words, ?_, hflat⟩
    rw [words_assignment, words_of_isWord hmnemonic]
    rfl
  | load d offset base =>
    refine ⟨words d, [offset, base].flatMap words, ?_, hflat⟩
    rw [words_assignment, words_of_isWord hmnemonic]
    simp [words_memory]
  | store d offset base =>
    refine ⟨[], [d, offset, base], ?_, rfl⟩
    rw [words_statement, words_of_isWord hmnemonic, ← hflat]
    simp [words_memory]

/-! ## Instructions -/

namespace Instruction

variable {i i' : Instruction}

theorem operandTexts_of_kind {k : Kind} (hk : i.kind? = some k) :
    i.operandTexts = i.operands.map Operand.text := by
  cases i with
  | unknown word => cases hk
  | _ => rfl

/-- The operands of an instruction are written as words that are no mnemonics. -/
theorem operandTexts_words (i : Instruction) :
    ∀ text ∈ i.operandTexts, IsWord text ∧ text ∉ mnemonics := by
  cases hk : i.kind? with
  | none =>
    cases i <;> cases hk
    rintro text (_ | ⟨_, ⟨⟩⟩)
    exact ⟨isWord_hexPadded _ _, not_mem_mnemonics_of_digit (startsWithDigit_hexPadded _ _)⟩
  | some k =>
    rw [operandTexts_of_kind hk, List.forall_mem_map]
    exact fun o _ => ⟨o.isWord_text, o.text_not_mem_mnemonics⟩

/-- The one mnemonic among the words of a text and the other words are the parts of the
instruction. -/
theorem filter_words (i : Instruction) :
    (words i.text).filter (· ∈ mnemonics) = [mnemonic i.kind?] ∧
      (words i.text).filter (· ∉ mnemonics) = i.operandTexts := by
  obtain ⟨before, after, hwords, hoperands⟩ := i.text_written.words_eq
    (isWord_names _ (mnemonic_mem_names _)) fun text h => (i.operandTexts_words text h).1
  have hnot : ∀ text ∈ before ++ after, text ∉ mnemonics :=
    fun text h => (i.operandTexts_words text (hoperands ▸ h)).2
  obtain ⟨hbefore, hafter⟩ := List.forall_mem_append.1 hnot
  have hmem := mnemonic_mem i.kind?
  rw [hwords, ← hoperands]
  constructor
  · rw [List.filter_append, List.filter_cons_of_pos (by simpa using hmem),
      List.filter_eq_nil_iff.2 (by simpa using hbefore),
      List.filter_eq_nil_iff.2 (by simpa using hafter)]
    rfl
  · rw [List.filter_append, List.filter_cons_of_neg (by simpa using hmem),
      List.filter_eq_self.2 (by simpa using hbefore), List.filter_eq_self.2 (by simpa using hafter)]

/-- The text says what kind of instruction it is and what operands it has. -/
theorem kind?_and_operands_of_text (h : i.text = i'.text) :
    i.kind? = i'.kind? ∧ i.operandTexts = i'.operandTexts := by
  obtain ⟨hmnemonic, hoperands⟩ := i.filter_words
  rw [h] at hmnemonic hoperands
  exact ⟨mnemonic_injective (List.singleton_inj.1 (hmnemonic.symm.trans i'.filter_words.1)),
    hoperands.symm.trans i'.filter_words.2⟩

/-- **No two different decoded instructions are written alike.** -/
theorem text_decode_inj {w w' : UInt32} :
    (decode w).text = (decode w').text ↔ decode w = decode w' := by
  refine ⟨fun h => ?_, congrArg text⟩
  obtain ⟨hkind, hoperands⟩ := kind?_and_operands_of_text h
  cases hk : (decode w).kind? with
  | none =>
    rw [decode_eq_unknown hk, decode_eq_unknown (hkind ▸ hk)] at hoperands ⊢
    exact congrArg unknown (UInt32.toNat_inj.1 (hexPadded_inj (List.singleton_inj.1 hoperands)))
  | some k =>
    have hk' : (decode w').kind? = some k := hkind ▸ hk
    rw [operandTexts_of_kind hk, operandTexts_of_kind hk'] at hoperands
    have hsame := List.map_injective_iff.2 Operand.text_injective hoperands
    exact Kind.decode_eq_of_values hk hk' (congrArg (List.map Operand.value) hsame)

end Instruction

end R5900
