import R5900.Text.Radix
import R5900.Device.Peripheral

/-!
# The mailbox

Registers through which the main processor and the input/output processor talk. The other side is
not modelled; its flag register shows it as ready. Each side sets flags by writing ones to its own
flag register and clears flags of the other side's by writing ones to that.
-/

namespace R5900

/-- The mailbox. -/
structure Sif where
  mainCommand : UInt32
  /-- Written by the other side only. -/
  subCommand : UInt32
  mainFlag : UInt32
  subFlag : UInt32
  control : UInt32
  bd6 : UInt32
  deriving DecidableEq, Repr

/-- A register of the mailbox. -/
inductive SifRegister where
  | mainCommand | subCommand | mainFlag | subFlag | control | bd6
  deriving DecidableEq, Repr

namespace SifRegister

/-- The register at an address, by its low byte. -/
def ofAddress? (address : UInt32) : Option SifRegister :=
  match address &&& 0xFF with
  | 0x00 => some .mainCommand
  | 0x10 => some .subCommand
  | 0x20 => some .mainFlag
  | 0x30 => some .subFlag
  | 0x40 => some .control
  | 0x60 => some .bd6
  | _ => none

/-- The name of a register. -/
def name : SifRegister → String
  | .mainCommand => "SIF_MSCOM"
  | .subCommand => "SIF_SMCOM"
  | .mainFlag => "SIF_MSFLG"
  | .subFlag => "SIF_SMFLG"
  | .control => "SIF_CTRL"
  | .bd6 => "SIF_BD6"

end SifRegister

namespace Sif

/-- The other side has finished starting. -/
def initial : Sif := ⟨0, 0, 0, 0x10000, 0, 0⟩

/-- What a register holds. -/
def get (d : Sif) : SifRegister → UInt32
  | .mainCommand => d.mainCommand
  | .subCommand => d.subCommand
  | .mainFlag => d.mainFlag
  | .subFlag => d.subFlag
  | .control => d.control
  | .bd6 => d.bd6

/-- The effect of a write on a register. The control register always reads with its top four bits
and its lowest bit set after a write. -/
def set (d : Sif) (register : SifRegister) (value : UInt32) : Sif :=
  match register with
  | .mainCommand => { d with mainCommand := value }
  | .subCommand => d
  | .mainFlag => { d with mainFlag := d.mainFlag ||| value }
  | .subFlag => { d with subFlag := d.subFlag &&& ~~~value }
  | .control => { d with control := value ||| 0xF0000001 }
  | .bd6 => { d with bd6 := value }

/-- Read a register; every other address reads zero. -/
def readWord (d : Sif) (address : UInt32) : Reply Sif UInt32 :=
  match SifRegister.ofAddress? address with
  | some register => ⟨d.get register, d, []⟩
  | none => ⟨0, d, [⟨.warn, fun _ => "Invalid SIF read at " ++ Text.address address⟩]⟩

/-- Write a register; every other address ignores writes. -/
def writeWord (d : Sif) (address value : UInt32) : Reply Sif Unit :=
  match SifRegister.ofAddress? address with
  | some register =>
    ⟨(), d.set register value,
      [⟨.info, fun _ => register.name ++ " = " ++ Text.address value⟩]⟩
  | none =>
    ⟨(), d, [⟨.warn, fun _ => "Invalid SIF write of " ++ Text.address value ++ " at " ++
      Text.address address⟩]⟩

/-- A narrow write must not clear the other side's flags in the other lanes. -/
def retained (address : UInt32) : UInt32 := if address &&& 0xFF = 0x30 then 0 else 0xFFFFFFFF

instance : Peripheral Sif where
  readWord := readWord
  writeWord := writeWord
  retained := retained

end Sif

end R5900
