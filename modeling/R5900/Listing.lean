import R5900.Elf
import R5900.Instruction.Decode
import R5900.Instruction.Target
import R5900.Instruction.Text
import R5900.Memory

/-!
# Listings

The listing of an ELF file is its entry point followed by a line for every complete word of every
segment: the address, the bytes of the word from the highest to the lowest, the instruction, and
a note on words without effect or the target of a branch that is known beforehand.

A word stands at the virtual address of its segment plus its offset, a sum that must fit 64 bits,
and of which the line shows the low half.
-/

namespace R5900

/-- The note at the end of the line of an instruction. -/
def Instruction.remark (i : Instruction) (address : UInt32) : String :=
  if i.isNop then " # NOP"
  else match i.target? address with
    | some target => " # " ++ Text.hex target.toNat
    | none => ""

/-- The line of the word at an address. -/
def listingLine (address word : UInt32) : String :=
  let i := Instruction.decode word
  let bytes := [(word >>> 24).toUInt8, (word >>> 16).toUInt8, (word >>> 8).toUInt8, word.toUInt8]
  Text.padLeft 8 ' ' (Text.hexDigits address.toNat) ++ ":    " ++
    String.intercalate " " (bytes.map Text.hexByte) ++ "    " ++ i.text ++ i.remark address

namespace Segment

/-- The number of complete words of a segment. -/
def wordCount (s : Segment) : Nat := s.data.size / 4

/-- The byte of a segment at an offset; zero past the end. -/
def byte (s : Segment) (offset : Nat) : UInt8 := byteOf s.data offset

/-- The word of a segment at an index. -/
def word (s : Segment) (i : Nat) : UInt32 :=
  joinWord (s.byte (4 * i)) (s.byte (4 * i + 1)) (s.byte (4 * i + 2)) (s.byte (4 * i + 3))

/-- The address of the word at an index. -/
def wordAddress (s : Segment) (i : Nat) : Except Fault UInt32 := do
  return (← Checked.add64 s.virtualAddress (.ofNat (4 * i))).toUInt32

/-- The lines of a segment. -/
def listing (s : Segment) : Except Fault (List String) :=
  (List.range s.wordCount).mapM fun i => do return listingLine (← s.wordAddress i) (s.word i)

end Segment

namespace Elf

/-- The line of the entry point in a listing. -/
def entryLine (e : Elf) : String := "Entry point: " ++ Text.hex e.entryPoint.toNat

/-- The lines of segments, in order. -/
def listing (segments : List Segment) : Except Fault (List String) := do
  return (← segments.mapM Segment.listing).flatten

end Elf

end R5900
