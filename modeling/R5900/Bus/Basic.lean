import R5900.Memory
import R5900.Bus.Region
import R5900.Device.Bank

/-!
# The bus

Three memories and the mapped devices share the bus. `Bus.route` says who answers at an address:
the memories first, main memory appearing again and again over its window, then the devices in the
order in which they were mapped. An access has one of three ends: an answer, nobody there, or a
fault when it runs past the end of a memory. `read` and `write` make the second harmless, by reading
zero and dropping the value.

Boot memory drops writes.
-/

namespace R5900

/-- The size of main memory. -/
def mainSize : Nat := 33554432
/-- The size of boot memory. -/
def bootSize : Nat := 4194304
/-- The size of the memory of the input/output processor. -/
def iopSize : Nat := 2097152

/-- Who answers at an address. -/
inductive Route where
  | main (offset : Nat)
  | boot (offset : Nat)
  | iop (offset : Nat)
  | device (unit : UnitId)
  | unmapped
  deriving DecidableEq, Repr

/-- The bus with everything on it. -/
structure Bus where
  main : Memory mainSize
  boot : Memory bootSize
  iop : Memory iopSize
  devices : Bank
  /-- The mapped regions, first mapped first. -/
  map : List (Region × UnitId)

/-- What an access on the bus answers: a value, the bus afterwards and what was reported. -/
structure BusReply (α : Type) where
  value : α
  bus : Bus
  notes : List Note

/-- How an access that insists on an answer ends. -/
inductive BusAccess (α : Type) where
  | answered (reply : BusReply α)
  /-- Nobody answers at the address; the bus is as before. -/
  | unmapped (address : UInt32) (bus : Bus)

/-- The text of an access to an address where nobody answers. -/
def unmappedText (address : UInt32) : String := "no device mapped at " ++ Text.address address

namespace Bus

/-- Clear memories and no mapped region. -/
def initial : Bus where
  main := .zero mainSize
  boot := .zero bootSize
  iop := .zero iopSize
  devices := .initial
  map := []

/-- Map a unit; regions mapped earlier win where they overlap. -/
def mapUnit (b : Bus) (region : Region) (unit : UnitId) : Bus :=
  { b with map := b.map ++ [(region, unit)] }

/-- Add a device, and the name under which it can be mapped. -/
def attach (b : Bus) (device : Device) : UnitId × Bus :=
  (.attached b.devices.attached.size,
    { b with devices := { b.devices with attached := b.devices.attached.push device } })

/-- The unit that answers at an address, by the first region that contains it. -/
def unitAt? (map : List (Region × UnitId)) (address : UInt32) : Option UnitId :=
  (map.find? fun entry => entry.1.contains address).map Prod.snd

/-- Who answers at an address. -/
def route (b : Bus) (address : UInt32) : Route :=
  if address < 0x10000000 then .main (address &&& 0x1FFFFFF).toNat
  else if 0x1FC00000 ≤ address && address < 0x20000000 then .boot (address &&& 0x3FFFFF).toNat
  else if 0x1C000000 ≤ address && address < 0x1C200000 then .iop (address &&& 0x1FFFFF).toNat
  else match unitAt? b.map address with
    | some unit => .device unit
    | none => .unmapped

/-- The report that follows a device read. -/
def deviceReadNote (address : UInt32) : Note :=
  ⟨.trace, fun _ => "Read from peripheral at " ++ Text.address address⟩

/-- The report that precedes a device write. -/
def deviceWriteNote (address : UInt32) : Note :=
  ⟨.trace, fun _ => "Write to peripheral at " ++ Text.address address⟩

/-- The report of a write to boot memory. -/
def droppedNote (address : UInt32) : Note :=
  ⟨.trace, fun _ => "Dropped write to boot memory at " ++ Text.address address⟩

/-- The report of a read where nobody answers. -/
def unmappedReadNote (w : Width) (address : UInt32) : Note :=
  ⟨.warn, fun _ => "Bus error on " ++ toString w.bytes ++ "-byte read: " ++
    unmappedText address⟩

/-- The report of a write where nobody answers. -/
def unmappedWriteNote (w : Width) (address : UInt32) : Note :=
  ⟨.warn, fun _ => "Bus error on " ++ toString w.bytes ++ "-byte write: " ++
    unmappedText address⟩

/-- Carry the answer of a memory read over to the bus. -/
@[inline] def memoryRead {α : Type} (b : Bus) (value : Except Fault α) :
    Except Fault (BusReply α) :=
  match value with
  | .ok v => .ok ⟨v, b, []⟩
  | .error fault => .error fault

/-- Read along a route; where nobody answers the value is zero. -/
def readRoute (w : Width) (b : Bus) (address : UInt32) (route : Route) :
    Except Fault (BusReply w.Value) :=
  match route with
  | .main offset => memoryRead b (b.main.load w offset)
  | .boot offset => memoryRead b (b.boot.load w offset)
  | .iop offset => memoryRead b (b.iop.load w offset)
  | .device unit =>
    match b with
    | ⟨main, boot, iop, devices, map⟩ =>
      match devices.read w unit address with
      | .ok r =>
        .ok ⟨r.value, ⟨main, boot, iop, r.device, map⟩, r.notes ++ [deviceReadNote address]⟩
      | .error fault => .error fault
  | .unmapped => .ok ⟨w.zero, b, [unmappedReadNote w address]⟩

/-- Write along a route; where nobody answers the value is dropped. -/
def writeRoute (w : Width) (b : Bus) (address : UInt32) (value : w.Value) (route : Route) :
    Except Fault (BusReply Unit) :=
  match route with
  | .main offset =>
    match b with
    | ⟨main, boot, iop, devices, map⟩ =>
      match main.store w offset value with
      | .ok main => .ok ⟨(), ⟨main, boot, iop, devices, map⟩, []⟩
      | .error fault => .error fault
  | .boot _ => .ok ⟨(), b, [droppedNote address]⟩
  | .iop offset =>
    match b with
    | ⟨main, boot, iop, devices, map⟩ =>
      match iop.store w offset value with
      | .ok iop => .ok ⟨(), ⟨main, boot, iop, devices, map⟩, []⟩
      | .error fault => .error fault
  | .device unit =>
    match b with
    | ⟨main, boot, iop, devices, map⟩ =>
      match devices.write w unit address value with
      | .ok r =>
        .ok ⟨(), ⟨main, boot, iop, r.device, map⟩, deviceWriteNote address :: r.notes⟩
      | .error fault => .error fault
  | .unmapped => .ok ⟨(), b, [unmappedWriteNote w address]⟩

/-- Read a value; where nobody answers it is zero. -/
def read (w : Width) (b : Bus) (address : UInt32) : Except Fault (BusReply w.Value) :=
  b.readRoute w address (b.route address)

/-- Write a value; where nobody answers it is dropped. -/
def write (w : Width) (b : Bus) (address : UInt32) (value : w.Value) :
    Except Fault (BusReply Unit) :=
  b.writeRoute w address value (b.route address)

/-- Read a value, or say that nobody answers. -/
def tryRead (w : Width) (b : Bus) (address : UInt32) : Except Fault (BusAccess w.Value) :=
  match b.route address with
  | .unmapped => .ok (.unmapped address b)
  | route => .answered <$> b.readRoute w address route

/-- Write a value, or say that nobody answers. -/
def tryWrite (w : Width) (b : Bus) (address : UInt32) (value : w.Value) :
    Except Fault (BusAccess Unit) :=
  match b.route address with
  | .unmapped => .ok (.unmapped address b)
  | route => .answered <$> b.writeRoute w address value route

end Bus

end R5900
