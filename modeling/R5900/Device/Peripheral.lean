import R5900.Journal
import R5900.Word.Width

/-!
# Register devices

A device answers word accesses at physical addresses. Accesses of the other widths are built from
these by one rule. A narrow read takes its lane of the containing word. A narrow write reads the
containing word, keeps the bits that the device says a narrow write carries over, replaces the lane
and writes the word back. A doubleword access is two word accesses, lower address first, unless the
device has doubleword registers of its own, and a quadword access is two doubleword accesses.

An access answers with the device after it, so reads can have effects too, and with its notes.
-/

namespace R5900

/-- The answer of a device to an access: a value, the device afterwards and what it reports. -/
structure Reply (δ α : Type) where
  value : α
  device : δ
  notes : List Note

/-- Read the two words of a doubleword through a word read. -/
def readDoubleByWords {δ : Type} (readWord : δ → UInt32 → Reply δ UInt32) (d : δ)
    (address : UInt32) : Except Fault (Reply δ UInt64) := do
  let low := readWord d address
  let high := readWord low.device (← Checked.add32 address 4)
  return ⟨joinDouble low.value high.value, high.device, low.notes ++ high.notes⟩

/-- Write the two words of a doubleword through a word write. -/
def writeDoubleByWords {δ : Type} (writeWord : δ → UInt32 → UInt32 → Reply δ Unit) (d : δ)
    (address : UInt32) (value : UInt64) : Except Fault (Reply δ Unit) := do
  let low := writeWord d address value.toUInt32
  let high := writeWord low.device (← Checked.add32 address 4) (value >>> 32).toUInt32
  return ⟨(), high.device, low.notes ++ high.notes⟩

/-- A device with word registers. -/
class Peripheral (δ : Type) where
  /-- Read the word at an address. -/
  readWord : δ → UInt32 → Reply δ UInt32
  /-- Write the word at an address. -/
  writeWord : δ → UInt32 → UInt32 → Reply δ Unit
  /-- The bits of the word at an address that a narrow write carries over from the current value.
  Bits that act when written as one are left out, so that the other lanes are written as zero. -/
  retained : UInt32 → UInt32
  /-- Read the doubleword at an address. -/
  readDouble : δ → UInt32 → Except Fault (Reply δ UInt64) := readDoubleByWords readWord
  /-- Write the doubleword at an address. -/
  writeDouble : δ → UInt32 → UInt64 → Except Fault (Reply δ Unit) := writeDoubleByWords writeWord

namespace Peripheral

variable {δ : Type} [Peripheral δ]

/-- The address of the word that contains a byte. -/
@[inline] def wordAddress (address : UInt32) : UInt32 := address &&& ~~~3

/-- The lowest bit of the lane of a byte. -/
@[inline] def byteLane (address : UInt32) : UInt32 := (address &&& 3) * 8

/-- The lowest bit of the lane of a halfword. -/
@[inline] def halfLane (address : UInt32) : UInt32 := (address &&& 2) * 8

/-- Read a byte: its lane of the containing word. -/
def readByte (d : δ) (address : UInt32) : Reply δ UInt8 :=
  let r := readWord d (wordAddress address)
  ⟨(r.value >>> byteLane address).toUInt8, r.device, r.notes⟩

/-- Read a halfword: its lane of the containing word. -/
def readHalf (d : δ) (address : UInt32) : Reply δ UInt16 :=
  let r := readWord d (wordAddress address)
  ⟨(r.value >>> halfLane address).toUInt16, r.device, r.notes⟩

/-- Replace the bits of a lane of the containing word and write it back. -/
def writeLane (d : δ) (address lane mask value : UInt32) : Reply δ Unit :=
  let r := readWord d (wordAddress address)
  let current := r.value &&& retained δ (wordAddress address)
  let word := current &&& ~~~(mask <<< lane) ||| value <<< lane
  let r' := writeWord r.device (wordAddress address) word
  ⟨(), r'.device, r.notes ++ r'.notes⟩

/-- Write a byte into its lane of the containing word. -/
def writeByte (d : δ) (address : UInt32) (value : UInt8) : Reply δ Unit :=
  writeLane d address (byteLane address) 0xFF value.toUInt32

/-- Write a halfword into its lane of the containing word. -/
def writeHalf (d : δ) (address : UInt32) (value : UInt16) : Reply δ Unit :=
  writeLane d address (halfLane address) 0xFFFF value.toUInt32

/-- Read a quadword: two doublewords, lower address first. -/
def readQuad (d : δ) (address : UInt32) : Except Fault (Reply δ Quad) := do
  let low ← readDouble d address
  let high ← readDouble low.device (← Checked.add32 address 8)
  return ⟨⟨low.value, high.value⟩, high.device, low.notes ++ high.notes⟩

/-- Write a quadword: two doublewords, lower address first. -/
def writeQuad (d : δ) (address : UInt32) (value : Quad) : Except Fault (Reply δ Unit) := do
  let low ← writeDouble d address value.lo
  let high ← writeDouble low.device (← Checked.add32 address 8) value.hi
  return ⟨(), high.device, low.notes ++ high.notes⟩

/-- Read a value of any width. -/
def read (w : Width) (d : δ) (address : UInt32) : Except Fault (Reply δ w.Value) :=
  match w with
  | .byte => .ok (readByte d address)
  | .half => .ok (readHalf d address)
  | .word => .ok (readWord d address)
  | .double => readDouble d address
  | .quad => readQuad d address

/-- Write a value of any width. -/
def write (w : Width) (d : δ) (address : UInt32) (value : w.Value) : Except Fault (Reply δ Unit) :=
  match w with
  | .byte => .ok (writeByte d address value)
  | .half => .ok (writeHalf d address value)
  | .word => .ok (writeWord d address value)
  | .double => writeDouble d address value
  | .quad => writeQuad d address value

end Peripheral

end R5900
