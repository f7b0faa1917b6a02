/-!
# ELF files

What loading and listing need of an executable file: where it starts, and the stretches of its bytes
that belong in memory. Files are little-endian, of either class.

* `Elf.read? file` checks the file and finds its program table. It refuses a file whose
  identification is not that of a little-endian ELF file, and one whose tables have entries of a
  size of their own or reach past the end of the file.
* `Elf.segments?` cuts the loadable segments out of the file, in the order of the program table.
  It refuses them all if one reaches past the end of the file.

A table at offset zero is no table. A file without a program table has no segments.
-/

namespace R5900

/-- A stretch of bytes that belongs in memory. -/
structure Segment where
  virtualAddress : UInt64
  physicalAddress : UInt64
  data : ByteArray

namespace Elf

/-- The bytes of a file from `offset` on, if there are `count` of them. -/
def bytesAt? (file : ByteArray) (offset count : Nat) : Option ByteArray :=
  if offset + count ≤ file.size then some (file.extract offset (offset + count)) else none

/-- The little-endian number in the `count` bytes from `offset` on. -/
def numberAt? (file : ByteArray) (offset count : Nat) : Option Nat :=
  (bytesAt? file offset count).map fun bytes =>
    bytes.data.toList.foldr (fun byte rest => byte.toNat + 256 * rest) 0

/-- Where the fields of a class of files stand. Positions in the file header count from the start of
the file, those of a table entry from the start of the entry. -/
structure Layout where
  /-- The bytes of an address, offset or size. -/
  word : Nat
  fileHeader : Nat
  entryPoint : Nat
  programTable : Nat
  sectionTable : Nat
  programEntrySize : Nat
  programCount : Nat
  sectionEntrySize : Nat
  sectionCount : Nat
  /-- The bytes of a section table entry, and two of its fields. -/
  sectionEntry : Nat
  sectionSize : Nat
  sectionInfo : Nat
  /-- The bytes of a program table entry, and the fields after its kind. -/
  programEntry : Nat
  offset : Nat
  virtualAddress : Nat
  physicalAddress : Nat
  fileSize : Nat

namespace Layout

/-- The layout of files with addresses of 32 bits. -/
def narrow : Layout where
  word := 4
  fileHeader := 52
  entryPoint := 24
  programTable := 28
  sectionTable := 32
  programEntrySize := 42
  programCount := 44
  sectionEntrySize := 46
  sectionCount := 48
  sectionEntry := 40
  sectionSize := 20
  sectionInfo := 28
  programEntry := 32
  offset := 4
  virtualAddress := 8
  physicalAddress := 12
  fileSize := 16

/-- The layout of files with addresses of 64 bits. -/
def wide : Layout where
  word := 8
  fileHeader := 64
  entryPoint := 24
  programTable := 32
  sectionTable := 40
  programEntrySize := 54
  programCount := 56
  sectionEntrySize := 58
  sectionCount := 60
  sectionEntry := 64
  sectionSize := 32
  sectionInfo := 44
  programEntry := 56
  offset := 8
  virtualAddress := 16
  physicalAddress := 24
  fileSize := 32

/-- The layout of the class that a file names in its identification, if the rest of the
identification is in order: the magic bytes, little-endian data and version one. -/
def ofFile? (file : ByteArray) : Option Layout := do
  let ident ← bytesAt? file 0 16
  match ident.data.toList with
  | 0x7F :: 0x45 :: 0x4C :: 0x46 :: cls :: 1 :: 1 :: _ =>
    if cls = 1 then some narrow else if cls = 2 then some wide else none
  | _ => none

end Layout

/-- An entry of the program table. -/
structure ProgramEntry where
  kind : Nat
  offset : Nat
  virtualAddress : Nat
  physicalAddress : Nat
  fileSize : Nat
  deriving DecidableEq, Repr

/-- The kind of program table entries whose bytes belong in memory. -/
def loadable : Nat := 1

/-- The program table entry at an offset of the file. -/
def ProgramEntry.read? (l : Layout) (file : ByteArray) (start : Nat) : Option ProgramEntry := do
  return {
    kind := ← numberAt? file start 4
    offset := ← numberAt? file (start + l.offset) l.word
    virtualAddress := ← numberAt? file (start + l.virtualAddress) l.word
    physicalAddress := ← numberAt? file (start + l.physicalAddress) l.word
    fileSize := ← numberAt? file (start + l.fileSize) l.word }

/-- A number of the first section table entry, which must lie in the file as a whole. -/
def firstSectionNumber? (l : Layout) (file : ByteArray) (table field count : Nat) :
    Option Nat := do
  let entry ← bytesAt? file table l.sectionEntry
  numberAt? entry field count

/-- Whether the section table is in order: its entries have the size of their class, and they lie in
the file. The first entry holds their number if the file header gives none. -/
def sectionTableOk (l : Layout) (file : ByteArray) : Option Unit := do
  let table ← numberAt? file l.sectionTable l.word
  if table = 0 then return
  let count ← numberAt? file l.sectionCount 2
  let count ← if count = 0 then firstSectionNumber? l file table l.sectionSize l.word
    else some count
  guard ((← numberAt? file l.sectionEntrySize 2) = l.sectionEntry)
  guard (table + l.sectionEntry * count ≤ file.size)

/-- The count in a file header that sends the reader to the first section table entry. -/
def manyPrograms : Nat := 0xFFFF

/-- The entries of the program table, which must have the size of their class and lie in the file. -/
def programs? (l : Layout) (file : ByteArray) : Option (List ProgramEntry) := do
  let table ← numberAt? file l.programTable l.word
  if table = 0 then return []
  let count ← numberAt? file l.programCount 2
  let count ← if count = manyPrograms then do
      firstSectionNumber? l file (← numberAt? file l.sectionTable l.word) l.sectionInfo 4
    else some count
  guard ((← numberAt? file l.programEntrySize 2) = l.programEntry)
  guard (table + l.programEntry * count ≤ file.size)
  (List.range count).mapM fun i => ProgramEntry.read? l file (table + l.programEntry * i)

end Elf

/-- An executable file: its bytes, where it starts, and what its program table says. -/
structure Elf where
  file : ByteArray
  entryPoint : UInt64
  programs : List Elf.ProgramEntry

namespace Elf

/-- Read an executable file. -/
def read? (file : ByteArray) : Option Elf := do
  let l ← Layout.ofFile? file
  guard (l.fileHeader ≤ file.size)
  sectionTableOk l file
  return {
    file := file
    entryPoint := .ofNat (← numberAt? file l.entryPoint l.word)
    programs := ← programs? l file }

/-- The segment of a program table entry, if its bytes lie in the file. -/
def segment? (e : Elf) (p : ProgramEntry) : Option Segment := do
  let data ← bytesAt? e.file p.offset p.fileSize
  return ⟨.ofNat p.virtualAddress, .ofNat p.physicalAddress, data⟩

/-- The segments that belong in memory, in the order of the program table. -/
def segments? (e : Elf) : Option (List Segment) :=
  (e.programs.filter fun p => p.kind = loadable).mapM e.segment?

end Elf

end R5900
