import R5900.Text.Radix
import Mathlib.Data.List.Basic

/-!
# Written numbers and words

A number that is written in a base is read back, also from behind a padding of zeros
(`Text.readDigits?_padded`), so different numbers are written differently.

A text falls into words at the characters between them. The words of a text that is put together
with such characters are those of its parts (`Text.words_append_gap`), and a word is its own only
word (`Text.words_of_isWord`).
-/

namespace R5900.Text

/-! ## Numbers -/

section Numbers

variable {base : Nat} {digit? : Char → Option Nat}

/-- The digits of a base are read as the numbers that they are written for. -/
structure ReadsDigits (base : Nat) (digit? : Char → Option Nat) : Prop where
  one_lt : 1 < base
  digit : ∀ d < base, digit? d.digitChar = some d

theorem readsDigits_decimal : ReadsDigits 10 decimalDigit? := ⟨by decide, by decide⟩

theorem readsDigits_hex : ReadsDigits 16 hexDigit? := ⟨by decide, by decide⟩

/-- The characters of a written number are digits of the base. -/
theorem exists_digitChar (h : 1 < base) {n : Nat} {c : Char} (hc : c ∈ Nat.toDigits base n) :
    ∃ d < base, c = d.digitChar := by
  induction n using Nat.strongRecOn with
  | ind n ih =>
    rcases Nat.lt_or_ge n base with hlt | hge
    · rw [Nat.toDigits_of_lt_base hlt, List.mem_singleton] at hc
      exact ⟨n, hlt, hc⟩
    · rw [Nat.toDigits_of_base_le h hge, List.mem_append, List.mem_singleton] at hc
      rcases hc with hc | hc
      · exact ih _ (Nat.div_lt_self (by omega) h) hc
      · exact ⟨n % base, Nat.mod_lt _ (by omega), hc⟩

variable (h : ReadsDigits base digit?)

include h

theorem foldlM_zeros (zeros : Nat) :
    (List.replicate zeros '0').foldlM (fun n c => (digit? c).map (n * base + ·)) 0 = some 0 := by
  induction zeros with
  | zero => rfl
  | succ zeros ih =>
    have hzero : digit? '0' = some 0 := h.digit 0 (by have := h.one_lt; omega)
    simpa [List.replicate_succ, hzero] using ih

theorem foldlM_toDigits (n : Nat) :
    (Nat.toDigits base n).foldlM (fun n c => (digit? c).map (n * base + ·)) 0 = some n := by
  have hone := h.one_lt
  induction n using Nat.strongRecOn with
  | ind n ih =>
    rcases Nat.lt_or_ge n base with hlt | hge
    · simp [Nat.toDigits_of_lt_base hlt, h.digit n hlt]
    · have hlast := h.digit (n % base) (Nat.mod_lt _ (by omega))
      rw [Nat.toDigits_of_base_le hone hge, List.foldlM_append,
        ih _ (Nat.div_lt_self (by omega) hone)]
      simp [hlast, Nat.div_add_mod']

/-- A written number is read back, also from behind zeros. -/
theorem readDigits?_padded (zeros n : Nat) :
    readDigits? base digit? (List.replicate zeros '0' ++ Nat.toDigits base n) = some n := by
  rw [readDigits?, List.foldlM_append, foldlM_zeros h]
  · exact foldlM_toDigits h n
  · simp [Nat.toDigits_ne_nil]

end Numbers

theorem toDigits_inj {base : Nat} {digit? : Char → Option Nat} (h : ReadsDigits base digit?)
    {m n : Nat} (heq : Nat.toDigits base m = Nat.toDigits base n) : m = n := by
  have hm := foldlM_toDigits h m
  rw [heq, foldlM_toDigits h n] at hm
  exact (Option.some.inj hm).symm

theorem toList_hex (n : Nat) : (hex n).toList = ['0', 'x'] ++ Nat.toDigits 16 n := by
  simp [hex, hexDigits]

theorem toList_hexPadded (count n : Nat) : (hexPadded count n).toList = ['0', 'x'] ++
    (List.replicate (count - (hexDigits n).length) '0' ++ Nat.toDigits 16 n) := by
  simp [hexPadded, padLeft, hexDigits]

variable {m n : Nat}

theorem toString_inj (h : toString m = toString n) : m = n := by
  have hdigits := congrArg String.toList h
  simp only [Nat.toString_eq_repr, Nat.toList_repr] at hdigits
  exact toDigits_inj readsDigits_decimal hdigits

theorem hex_inj (h : hex m = hex n) : m = n := by
  have hdigits := congrArg String.toList h
  rw [toList_hex, toList_hex] at hdigits
  exact toDigits_inj readsDigits_hex (List.append_cancel_left hdigits)

/-- Padding does not confuse numbers. -/
theorem hexPadded_inj {count : Nat} (h : hexPadded count m = hexPadded count n) : m = n := by
  have hdigits := congrArg String.toList h
  rw [toList_hexPadded, toList_hexPadded] at hdigits
  have hm := readDigits?_padded readsDigits_hex (count - (hexDigits m).length) m
  rw [List.append_cancel_left hdigits, readDigits?_padded readsDigits_hex] at hm
  exact (Option.some.inj hm).symm

/-! ## Words -/

/-- The character is part of no word. -/
def isSeparator (c : Char) : Bool := !(c.isAlphanum || c = '.')

/-- The words of a list of characters. -/
def charWords (cs : List Char) : List (List Char) := (cs.splitOnP isSeparator).filter (· ≠ [])

/-- The words of a text. -/
def words (text : String) : List String := (charWords text.toList).map String.ofList

/-- The text is a single word. -/
structure IsWord (text : String) : Prop where
  ne_nil : text.toList ≠ []
  noSeparator : ∀ c ∈ text.toList, isSeparator c = false

/-- The text separates words and has none itself. -/
structure IsGap (text : String) : Prop where
  ne_nil : text.toList ≠ []
  separates : ∀ c ∈ text.toList, isSeparator c = true

-- Both are decided by a run over the text, never by one over all characters.
instance (text : String) : Decidable (IsWord text) :=
  decidable_of_iff (text.toList ≠ [] ∧ text.toList.all (!isSeparator ·) = true)
    ⟨fun h => ⟨h.1, by simpa using h.2⟩, fun h => ⟨h.ne_nil, by simpa using h.noSeparator⟩⟩

instance (text : String) : Decidable (IsGap text) :=
  decidable_of_iff (text.toList ≠ [] ∧ text.toList.all isSeparator = true)
    ⟨fun h => ⟨h.1, List.all_eq_true.1 h.2⟩, fun h => ⟨h.ne_nil, List.all_eq_true.2 h.separates⟩⟩

theorem words_of_isWord {text : String} (h : IsWord text) : words text = [text] := by
  rw [words, charWords, List.splitOnP_eq_singleton h.noSeparator]
  simp [h.ne_nil]

theorem charWords_append_cons {c : Char} (h : isSeparator c = true) (cs cs' : List Char) :
    charWords (cs ++ c :: cs') = charWords cs ++ charWords cs' := by
  rw [charWords, List.splitOnP_append_cons cs cs' h, List.filter_append]
  rfl

/-- What stands before the first word does not matter. -/
theorem charWords_append_of_separators {gap : List Char} (h : ∀ c ∈ gap, isSeparator c = true)
    (cs : List Char) : charWords (gap ++ cs) = charWords cs := by
  induction gap with
  | nil => rfl
  | cons c gap ih =>
    obtain ⟨hc, hgap⟩ := List.forall_mem_cons.1 h
    exact (charWords_append_cons hc [] (gap ++ cs)).trans (ih hgap)

/-- **The words of two texts with a gap between them are those of the one and of the other.** -/
theorem words_append_gap {gap : String} (h : IsGap gap) (text text' : String) :
    words (text ++ (gap ++ text')) = words text ++ words text' := by
  obtain ⟨c, rest, hgap⟩ := List.exists_cons_of_ne_nil h.ne_nil
  obtain ⟨hc, hrest⟩ := List.forall_mem_cons.1 (hgap ▸ h.separates)
  rw [words, String.toList_append, String.toList_append, hgap, List.cons_append,
    charWords_append_cons hc, charWords_append_of_separators hrest, List.map_append]
  rfl

/-! ## Numbers are words -/

theorem noSeparator_toDigits {base : Nat} (h : 1 < base) (hle : base ≤ 16) {n : Nat} :
    ∀ c ∈ Nat.toDigits base n, isSeparator c = false := by
  have hdigits : ∀ d < 16, isSeparator (Nat.digitChar d) = false := by decide
  intro c hc
  obtain ⟨d, hd, rfl⟩ := exists_digitChar h hc
  exact hdigits d (Nat.lt_of_lt_of_le hd hle)

theorem isWord_toString (n : Nat) : IsWord (toString n) where
  ne_nil := by simp [Nat.toDigits_ne_nil]
  noSeparator := by simpa using noSeparator_toDigits (by decide) (by decide)

theorem noSeparator_mark : ∀ c ∈ ['0', 'x'], isSeparator c = false :=
  List.forall_mem_cons.2 ⟨rfl, List.forall_mem_singleton.2 rfl⟩

theorem isWord_hex (n : Nat) : IsWord (hex n) where
  ne_nil := by simp [toList_hex]
  noSeparator := by
    rw [toList_hex]
    exact List.forall_mem_append.2
      ⟨noSeparator_mark, noSeparator_toDigits (by decide) (by decide)⟩

theorem isWord_hexPadded (count n : Nat) : IsWord (hexPadded count n) where
  ne_nil := by simp [toList_hexPadded]
  noSeparator := by
    rw [toList_hexPadded]
    refine List.forall_mem_append.2 ⟨noSeparator_mark, List.forall_mem_append.2
      ⟨fun c hc => ?_, noSeparator_toDigits (by decide) (by decide)⟩⟩
    rw [List.eq_of_mem_replicate hc]
    rfl

/-- The text starts with a digit, as a written number does. -/
def StartsWithDigit (text : String) : Prop := text.toList.head?.any Char.isDigit = true

instance (text : String) : Decidable (StartsWithDigit text) :=
  inferInstanceAs (Decidable (_ = true))

theorem startsWithDigit_toString (n : Nat) : StartsWithDigit (toString n) := by
  have hdigit : ((Nat.toDigits 10 n).head Nat.toDigits_ne_nil).isDigit = true :=
    Nat.isDigit_of_mem_toDigits (by decide) (by decide) (List.head_mem _)
  rw [StartsWithDigit, Nat.toString_eq_repr, Nat.toList_repr,
    List.head?_eq_some_head Nat.toDigits_ne_nil, Option.any_some]
  exact hdigit

theorem startsWithDigit_hex (n : Nat) : StartsWithDigit (hex n) := by
  rw [StartsWithDigit, toList_hex]
  rfl

theorem startsWithDigit_hexPadded (count n : Nat) : StartsWithDigit (hexPadded count n) := by
  rw [StartsWithDigit, toList_hexPadded]
  rfl

/-- No number is written in base ten as another one is in base sixteen with its mark. -/
theorem toString_ne_hex : toString m ≠ hex n := by
  intro h
  have hdigits := congrArg String.toList h
  rw [Nat.toString_eq_repr, Nat.toList_repr, toList_hex] at hdigits
  have hmark : 'x' ∈ Nat.toDigits 10 m := by simp [hdigits]
  exact absurd (Nat.isDigit_of_mem_toDigits (by decide) (by decide) hmark) (by decide)

end R5900.Text
