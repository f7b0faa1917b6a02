import Std.Data.HashMap
import R5900.Text.Radix
import R5900.Device.Peripheral

/-!
# Passive registers

A stand-in for units whose registers only need to hold what software writes. A word that was never
written reads zero.
-/

namespace R5900

/-- Words by address, with the name under which accesses are reported. -/
structure PassiveRegisters where
  name : String
  words : Std.HashMap UInt32 UInt32

namespace PassiveRegisters

/-- Nothing written yet. -/
def initial (name : String) : PassiveRegisters := ⟨name, ∅⟩

/-- The word at an address. -/
@[inline] def word (d : PassiveRegisters) (address : UInt32) : UInt32 := d.words.getD address 0

/-- What an access reports. -/
def accessNote (name verb : String) (address value : UInt32) : Note :=
  ⟨.trace, fun _ => name ++ " " ++ verb ++ " " ++ Text.address address ++ " = " ++
    Text.address value⟩

/-- Read the word at an address. -/
def readWord (d : PassiveRegisters) (address : UInt32) : Reply PassiveRegisters UInt32 :=
  let value := d.word address
  ⟨value, d, [accessNote d.name "read" address value]⟩

/-- Write the word at an address. -/
def writeWord (d : PassiveRegisters) (address value : UInt32) : Reply PassiveRegisters Unit :=
  ⟨(), { d with words := d.words.insert address value }, [accessNote d.name "write" address value]⟩

instance : Peripheral PassiveRegisters where
  readWord := readWord
  writeWord := writeWord
  retained _ := 0xFFFFFFFF

end PassiveRegisters

end R5900
