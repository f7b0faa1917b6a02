import R5900.BitField
import R5900.Text.Radix
import R5900.Device.Peripheral

/-!
# The memory controller hub

Boot firmware sizes memory by commands: it writes a command register and reads answers from a data
register. Only this handshake is modelled. Enumeration reports a fixed number of devices, one for
each read of the data register under the enumeration command, until a reset command.
-/

namespace R5900

/-- The memory controller hub. -/
structure Rdram where
  /-- The last command. -/
  command : UInt32
  /-- The last data word written. -/
  data : UInt32
  /-- How many devices have been reported since the last reset. -/
  reported : UInt32
  deriving DecidableEq, Repr

namespace Rdram

/-- The address of the command register. -/
def commandAddress : UInt32 := 0x1000F430
/-- The address of the data register. -/
def dataAddress : UInt32 := 0x1000F440

/-- The number of devices that enumeration reports. -/
def devices : UInt32 := 2

/-- No command given. -/
def initial : Rdram := ⟨0, 0, 0⟩

/-- The register that a command is about. -/
@[inline] def commandRegister (command : UInt32) : UInt32 := field32 command 16 8
/-- The operation of a command; reads are operation zero. -/
@[inline] def commandOperation (command : UInt32) : UInt32 := field32 command 6 4

/-- What a read of no register reports. -/
def invalidRead (address : UInt32) : Note :=
  ⟨.warn, fun _ => "Invalid RDRAM read at " ++ Text.address address⟩

/-- Read the answer to the last command; every other address reads zero. -/
def readWord (d : Rdram) (address : UInt32) : Reply Rdram UInt32 :=
  if address = commandAddress then ⟨0, d, []⟩
  else if address = dataAddress then
    if commandOperation d.command != 0 then ⟨0, d, []⟩
    else match commandRegister d.command with
      | 0x21 =>
        if d.reported < devices then ⟨0x1F, { d with reported := d.reported + 1 }, []⟩
        else ⟨0, d, []⟩
      | 0x23 => ⟨0x0D0D, d, []⟩
      | 0x24 => ⟨0x0090, d, []⟩
      | 0x40 => ⟨field32 d.command 0 5, d, []⟩
      | _ => ⟨0, d, []⟩
  else ⟨0, d, [invalidRead address]⟩

/-- Give a command or write the data register; every other address ignores writes. Enumeration
starts over with a write of operation one to its register while bit 7 of the data is clear. -/
def writeWord (d : Rdram) (address value : UInt32) : Reply Rdram Unit :=
  if address = commandAddress then
    let resets := commandRegister value = 0x21 && commandOperation value = 1 && !testBit32 d.data 7
    let command := field32 value 0 31
    ⟨(), { d with command, reported := if resets then 0 else d.reported },
      [⟨.trace, fun _ => "MCH_RICM = " ++ Text.address command⟩]⟩
  else if address = dataAddress then ⟨(), { d with data := value }, []⟩
  else
    ⟨(), d, [⟨.warn, fun _ => "Invalid RDRAM write of " ++ Text.address value ++ " at " ++
      Text.address address⟩]⟩

instance : Peripheral Rdram where
  readWord := readWord
  writeWord := writeWord
  retained _ := 0xFFFFFFFF

end Rdram

end R5900
