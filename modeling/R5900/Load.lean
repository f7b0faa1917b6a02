import R5900.Elf
import R5900.Machine

/-!
# Loading

How a program gets into memory: the segments of an ELF file go to main memory, a boot image to the
start of boot memory. Segments are placed one after the other, so a later one wins where two
overlap, and the first that does not fit ends the loading; those before it stay in place.

A segment is linked for the segments of the virtual address space that show physical memory
directly, so the segment bits of its physical address are dropped.
-/

namespace R5900

/-- The memories that programs are loaded into. -/
inductive LoadTarget where
  | mainMemory | bootMemory
  deriving DecidableEq, Repr

/-- The name of a memory in a report. -/
def LoadTarget.name : LoadTarget → String
  | .mainMemory => "main memory"
  | .bootMemory => "boot ROM"

/-- Why there is nothing to run. -/
inductive LoadError where
  /-- No file was named. -/
  | noImage
  /-- The file cannot be read. -/
  | unreadable
  /-- The file is not an ELF file that can be loaded. -/
  | malformed
  /-- A stretch of `size` bytes at `address` does not fit the memory. -/
  | tooLarge (target : LoadTarget) (address : UInt64) (size : Nat)
  deriving DecidableEq, Repr

/-- The text of a loading error. -/
def LoadError.text : LoadError → String
  | .noImage => "NoImage"
  | .unreadable => "Io"
  | .malformed => "Elf"
  | .tooLarge target address size =>
    "TooLarge \x7b target: \"" ++ target.name ++ "\", address: " ++ toString address.toNat ++
      ", size: " ++ toString size ++ " \x7d"

/-- How loading ends. The machine after a refusal is part of it: what was placed and reported
before stays. -/
inductive Loading where
  | done (machine : Machine)
  | refused (error : LoadError) (machine : Machine)

namespace Segment

/-- The physical address at which a segment starts in main memory. -/
def start (s : Segment) : Nat := (s.physicalAddress &&& 0x1FFFFFFF).toNat

/-- Whether a segment lies in main memory. -/
def fits (s : Segment) : Bool := s.start + s.data.size ≤ mainSize

/-- The report of a segment that was placed. -/
def loadedNote (s : Segment) : Note :=
  ⟨.info, fun _ => "Loaded " ++ Text.hex s.data.size ++ " bytes at " ++
    Text.hexPadded 8 s.start ++ " (virtual " ++ Text.hexPadded 8 s.virtualAddress.toNat ++ ")"⟩

end Segment

/-- The address at which an executable file starts, as far as the processor can address it. -/
def Elf.entry (e : Elf) : UInt32 := e.entryPoint.toUInt32

/-- The report of the address at which a loaded file starts. -/
def Elf.entryNote (e : Elf) : Note := ⟨.info, fun _ => "Entry point: " ++ Text.address e.entry⟩

namespace Machine

/-- Copy bytes into main memory. -/
def placeMain (m : Machine) (offset : Nat) (data : ByteArray) : Machine :=
  match m with
  | ⟨core, ⟨main, boot, iop, devices, map⟩, journal⟩ =>
    ⟨core, ⟨main.copy offset data, boot, iop, devices, map⟩, journal⟩

/-- Copy bytes into boot memory. -/
def placeBoot (m : Machine) (offset : Nat) (data : ByteArray) : Machine :=
  match m with
  | ⟨core, ⟨main, boot, iop, devices, map⟩, journal⟩ =>
    ⟨core, ⟨main, boot.copy offset data, iop, devices, map⟩, journal⟩

/-- Place segments in main memory, up to the first that does not fit. -/
def loadSegments : List Segment → Machine → Loading
  | [], m => .done m
  | s :: rest, m =>
    if s.fits then
      let m := m.placeMain s.start s.data
      loadSegments rest { m with journal := m.journal.add s.loadedNote }
    else .refused (.tooLarge .mainMemory s.physicalAddress s.data.size) m

/-- Load an ELF file, and let the processor start where it says if `enter` is set. Every segment is
cut out of the file before the first is placed. -/
def loadElf (file : ByteArray) (enter : Bool) (m : Machine) : Loading :=
  match Elf.read? file with
  | none => .refused .malformed m
  | some e =>
    match e.segments? with
    | none => .refused .malformed m
    | some segments =>
      match m.loadSegments segments with
      | .refused error m => .refused error m
      | .done ⟨core, bus, journal⟩ =>
        .done ⟨if enter then core.enterAt e.entry else core, bus, journal.add e.entryNote⟩

/-- The report of a boot image that was placed. -/
def bootNote (size : Nat) : Note := ⟨.info, fun _ => "Loaded " ++ toString size ++ " byte BIOS"⟩

/-- Load a boot image to the start of boot memory. -/
def loadBoot (image : ByteArray) (m : Machine) : Loading :=
  if image.size ≤ bootSize then
    let m := m.placeBoot 0 image
    .done { m with journal := m.journal.add (bootNote image.size) }
  else .refused (.tooLarge .bootMemory 0 image.size) m

end Machine

end R5900
