import R5900.BitField
import R5900.Text.Radix
import R5900.Device.Peripheral

/-!
# The graphics registers

The privileged registers of the graphics unit are doublewords, one in each slot of 16 bytes. Drawing
is not modelled; the registers hold what is written, except that the status register acknowledges
event flags written as one. Word accesses are built from doubleword accesses.
-/

namespace R5900

/-- A privileged register of the graphics unit. -/
inductive GsRegister where
  | displayMode | syncMode1 | syncMode2 | refresh | synch1 | synch2 | syncv
  | frameBuffer1 | display1 | frameBuffer2 | display2
  | writeBuffer | writeData | writeStart | backgroundColor
  | status | interruptMask | busDirection | signalLabel
  deriving DecidableEq, Repr

namespace GsRegister

/-- The position of a register in the order of addresses. -/
def index : GsRegister → Fin 19
  | .displayMode => 0
  | .syncMode1 => 1
  | .syncMode2 => 2
  | .refresh => 3
  | .synch1 => 4
  | .synch2 => 5
  | .syncv => 6
  | .frameBuffer1 => 7
  | .display1 => 8
  | .frameBuffer2 => 9
  | .display2 => 10
  | .writeBuffer => 11
  | .writeData => 12
  | .writeStart => 13
  | .backgroundColor => 14
  | .status => 15
  | .interruptMask => 16
  | .busDirection => 17
  | .signalLabel => 18

/-- The register whose slot contains an address. -/
def ofAddress? (address : UInt32) : Option GsRegister :=
  match address &&& ~~~0xF with
  | 0x12000000 => some .displayMode
  | 0x12000010 => some .syncMode1
  | 0x12000020 => some .syncMode2
  | 0x12000030 => some .refresh
  | 0x12000040 => some .synch1
  | 0x12000050 => some .synch2
  | 0x12000060 => some .syncv
  | 0x12000070 => some .frameBuffer1
  | 0x12000080 => some .display1
  | 0x12000090 => some .frameBuffer2
  | 0x120000A0 => some .display2
  | 0x120000B0 => some .writeBuffer
  | 0x120000C0 => some .writeData
  | 0x120000D0 => some .writeStart
  | 0x120000E0 => some .backgroundColor
  | 0x12001000 => some .status
  | 0x12001010 => some .interruptMask
  | 0x12001040 => some .busDirection
  | 0x12001080 => some .signalLabel
  | _ => none

/-- The name of a register. -/
def name : GsRegister → String
  | .displayMode => "PMODE"
  | .syncMode1 => "SMODE1"
  | .syncMode2 => "SMODE2"
  | .refresh => "SRFSH"
  | .synch1 => "SYNCH1"
  | .synch2 => "SYNCH2"
  | .syncv => "SYNCV"
  | .frameBuffer1 => "DISPFB1"
  | .display1 => "DISPLAY1"
  | .frameBuffer2 => "DISPFB2"
  | .display2 => "DISPLAY2"
  | .writeBuffer => "EXTBUF"
  | .writeData => "EXTDATA"
  | .writeStart => "EXTWRITE"
  | .backgroundColor => "BGCOLOR"
  | .status => "CSR"
  | .interruptMask => "IMR"
  | .busDirection => "BUSDIR"
  | .signalLabel => "SIGLBLID"

end GsRegister

/-- The privileged registers of the graphics unit. -/
structure Gs where
  registers : Vector UInt64 19
  deriving DecidableEq, Repr

namespace Gs

/-- What a register holds. -/
@[inline] def get (d : Gs) (register : GsRegister) : UInt64 := d.registers[register.index]

/-- Replace what a register holds. -/
@[inline] def put (d : Gs) (register : GsRegister) (value : UInt64) : Gs :=
  ⟨d.registers.set register.index value⟩

/-- The status register shows the revision, and all interrupts are masked. -/
def initial : Gs :=
  ((⟨Vector.replicate 19 0⟩ : Gs).put .status 0x1B0000).put .interruptMask 0x7F00

/-- The status bit of vertical sync. -/
def vsync : UInt64 := 3
/-- The status bit of the displayed field, which alternates. -/
def displayedField : UInt64 := 13
/-- The mask bit of vertical sync. -/
def vsyncMask : UInt64 := 11
/-- The event flags of the status register. -/
def eventFlags : UInt64 := 0x1F

/-- Latch a vertical sync, and whether an interrupt is asked for. -/
def vblank (d : Gs) : Bool × Gs :=
  let status := putBit64 (d.get .status) vsync true
  let status := putBit64 status displayedField (!testBit64 status displayedField)
  (!testBit64 (d.get .interruptMask) vsyncMask, d.put .status status)

/-- Read the register of a slot; every other address reads zero. -/
def readDouble (d : Gs) (address : UInt32) : Reply Gs UInt64 :=
  match GsRegister.ofAddress? address with
  | some register => ⟨d.get register, d, []⟩
  | none => ⟨0, d, [⟨.warn, fun _ => "Invalid GS read at " ++ Text.address address⟩]⟩

/-- The effect of a write on a register. -/
def set (d : Gs) (register : GsRegister) (value : UInt64) : Gs :=
  match register with
  | .status => d.put .status (d.get .status &&& ~~~(value &&& eventFlags))
  | _ => d.put register value

/-- Write the register of a slot; every other address ignores writes. -/
def writeDouble (d : Gs) (address : UInt32) (value : UInt64) : Reply Gs Unit :=
  match GsRegister.ofAddress? address with
  | some register =>
    ⟨(), d.set register value,
      [⟨.debug, fun _ => register.name ++ " = " ++ Text.hexPadded 16 value.toNat⟩]⟩
  | none =>
    ⟨(), d, [⟨.warn, fun _ => "Invalid GS write of " ++ Text.hex value.toNat ++ " at " ++
      Text.address address⟩]⟩

/-- The address of the doubleword that contains a byte. -/
@[inline] def doubleAddress (address : UInt32) : UInt32 := address &&& ~~~7

/-- The lowest bit of the word of an address in its doubleword. -/
@[inline] def wordLane (address : UInt32) : UInt64 := ((address &&& 4) * 8).toUInt64

/-- Read a word: its half of the containing doubleword. -/
def readWord (d : Gs) (address : UInt32) : Reply Gs UInt32 :=
  let r := readDouble d (doubleAddress address)
  ⟨(r.value >>> wordLane address).toUInt32, r.device, r.notes⟩

/-- Write a word: replace its half of the containing doubleword and write it back. The status
register is not read for this, because writing its event flags back would acknowledge them. -/
def writeWord (d : Gs) (address value : UInt32) : Reply Gs Unit :=
  let existing : Reply Gs UInt64 :=
    match GsRegister.ofAddress? (doubleAddress address) with
    | some .status => ⟨0, d, []⟩
    | _ => readDouble d (doubleAddress address)
  let lane := wordLane address
  let merged := existing.value &&& ~~~((0xFFFFFFFF : UInt64) <<< lane) ||| value.toUInt64 <<< lane
  let r := writeDouble existing.device (doubleAddress address) merged
  ⟨(), r.device, existing.notes ++ r.notes⟩

/-- A narrow write must not acknowledge events in the other lanes. -/
def retained (address : UInt32) : UInt32 :=
  match GsRegister.ofAddress? address with
  | some .status => 0
  | _ => 0xFFFFFFFF

instance : Peripheral Gs where
  readWord := readWord
  writeWord := writeWord
  retained := retained
  readDouble d address := .ok (readDouble d address)
  writeDouble d address value := .ok (writeDouble d address value)

end Gs

end R5900
