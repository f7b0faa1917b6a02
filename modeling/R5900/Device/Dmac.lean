import R5900.Text.Radix
import R5900.Device.Peripheral

/-!
# The DMA controller

Ten channels with seven registers each and a group of global registers. Transfers are not performed;
the registers hold what is written, except that the status register clears flags and toggles masks
written as one, and the enable register is read at one address and written at another.
-/

namespace R5900

/-- A DMA channel. -/
inductive DmaChannel where
  | vif0 | vif1 | gif | fromIpu | toIpu | sif0 | sif1 | sif2 | fromSpr | toSpr
  deriving DecidableEq, Repr

namespace DmaChannel

/-- The channels in order of address. -/
def all : List DmaChannel :=
  [vif0, vif1, gif, fromIpu, toIpu, sif0, sif1, sif2, fromSpr, toSpr]

/-- The position of a channel in the order of addresses. -/
def index : DmaChannel → Fin 10
  | .vif0 => 0
  | .vif1 => 1
  | .gif => 2
  | .fromIpu => 3
  | .toIpu => 4
  | .sif0 => 5
  | .sif1 => 6
  | .sif2 => 7
  | .fromSpr => 8
  | .toSpr => 9

/-- The name of a channel. -/
def name : DmaChannel → String
  | .vif0 => "Vif0"
  | .vif1 => "Vif1"
  | .gif => "Gif"
  | .fromIpu => "FromIpu"
  | .toIpu => "ToIpu"
  | .sif0 => "Sif0"
  | .sif1 => "Sif1"
  | .sif2 => "Sif2"
  | .fromSpr => "FromSpr"
  | .toSpr => "ToSpr"

/-- The channel whose block contains an address. -/
def ofAddress? (address : UInt32) : Option DmaChannel :=
  if address < 0x10008000 then none
  else if address < 0x10009000 then some .vif0
  else if address < 0x1000A000 then some .vif1
  else if address < 0x1000B000 then some .gif
  else if address < 0x1000B400 then some .fromIpu
  else if address < 0x1000C000 then some .toIpu
  else if address < 0x1000C400 then some .sif0
  else if address < 0x1000C800 then some .sif1
  else if address < 0x1000D000 then some .sif2
  else if address < 0x1000D400 then some .fromSpr
  else if address < 0x1000E000 then some .toSpr
  else none

/-- The position among its registers of the one at an address, by the low byte: control, memory
address, quadword count, tag address, two saved tag addresses, scratchpad address. -/
def register? (address : UInt32) : Option (Fin 7) :=
  match address &&& 0xFF with
  | 0x00 => some 0
  | 0x10 => some 1
  | 0x20 => some 2
  | 0x30 => some 3
  | 0x40 => some 4
  | 0x50 => some 5
  | 0x80 => some 6
  | _ => none

end DmaChannel

/-- A global register of the DMA controller. -/
inductive DmaRegister where
  | control | status | priority | skip | ringSize | ringOffset | stall
  /-- The enable register where it is read. -/
  | enabled
  /-- The enable register where it is written. -/
  | enable
  deriving DecidableEq, Repr

/-- The global register at an address. -/
def DmaRegister.ofAddress? (address : UInt32) : Option DmaRegister :=
  match address with
  | 0x1000E000 => some .control
  | 0x1000E010 => some .status
  | 0x1000E020 => some .priority
  | 0x1000E030 => some .skip
  | 0x1000E040 => some .ringSize
  | 0x1000E050 => some .ringOffset
  | 0x1000E060 => some .stall
  | 0x1000F520 => some .enabled
  | 0x1000F590 => some .enable
  | _ => none

/-- The DMA controller. -/
structure Dmac where
  control : UInt32
  status : UInt32
  priority : UInt32
  skip : UInt32
  ringSize : UInt32
  ringOffset : UInt32
  stall : UInt32
  /-- The enable register, read and written at different addresses. -/
  hold : UInt32
  channels : Vector (Vector UInt32 7) 10
  deriving DecidableEq, Repr

namespace Dmac

/-- The address at which the enable register is read. -/
def enabledAddress : UInt32 := 0x1000F520
/-- The address at which the enable register is written. -/
def enableAddress : UInt32 := 0x1000F590

/-- The bits of the status register that a one clears. -/
def statusFlags : UInt32 := 0x0000E3FF
/-- The bits of the status register that a one toggles. -/
def maskFlags : UInt32 := 0x63FF0000

/-- All registers clear but the enable register. -/
def initial : Dmac := ⟨0, 0, 0, 0, 0, 0, 0, 0x1201, Vector.replicate 10 (Vector.replicate 7 0)⟩

/-- What a global register holds. -/
def get (d : Dmac) : DmaRegister → UInt32
  | .control => d.control
  | .status => d.status
  | .priority => d.priority
  | .skip => d.skip
  | .ringSize => d.ringSize
  | .ringOffset => d.ringOffset
  | .stall => d.stall
  | .enabled => d.hold
  | .enable => d.hold

/-- The effect of a write on a global register. -/
def set (d : Dmac) (register : DmaRegister) (value : UInt32) : Dmac :=
  match register with
  | .control => { d with control := value }
  | .status =>
    { d with status := (d.status &&& ~~~(value &&& statusFlags)) ^^^ (value &&& maskFlags) }
  | .priority => { d with priority := value }
  | .skip => { d with skip := value }
  | .ringSize => { d with ringSize := value }
  | .ringOffset => { d with ringOffset := value }
  | .stall => { d with stall := value }
  | .enabled => d
  | .enable => { d with hold := value }

/-- What a register of a channel holds. -/
@[inline] def channelWord (d : Dmac) (channel : DmaChannel) (register : Fin 7) : UInt32 :=
  d.channels[channel.index][register]

/-- Replace what a register of a channel holds. -/
def setChannelWord (d : Dmac) (channel : DmaChannel) (register : Fin 7) (value : UInt32) : Dmac :=
  { d with
    channels := d.channels.set channel.index (d.channels[channel.index].set register value) }

/-- What a read of no register reports. -/
def invalidRead (address : UInt32) : Note :=
  ⟨.warn, fun _ => "Invalid DMAC read at " ++ Text.address address⟩

/-- What a write to no register reports. -/
def invalidWrite (address value : UInt32) : Note :=
  ⟨.warn, fun _ => "Invalid DMAC write of " ++ Text.address value ++ " at " ++
    Text.address address⟩

/-- Read a register; every other address reads zero. -/
def readWord (d : Dmac) (address : UInt32) : Reply Dmac UInt32 :=
  match DmaChannel.ofAddress? address with
  | some channel =>
    match DmaChannel.register? address with
    | some register => ⟨d.channelWord channel register, d, []⟩
    | none => ⟨0, d, [invalidRead address]⟩
  | none =>
    match DmaRegister.ofAddress? address with
    | some register => ⟨d.get register, d, []⟩
    | none => ⟨0, d, [invalidRead address]⟩

/-- What a write to a global register reports. -/
def registerNote (register : DmaRegister) (address value : UInt32) : Note :=
  match register with
  | .enabled =>
    ⟨.warn, fun _ => "Write of " ++ Text.address value ++ " to read-only D_ENABLER"⟩
  | _ => ⟨.debug, fun _ => "DMAC " ++ Text.address address ++ " = " ++ Text.address value⟩

/-- Write a register; every other address ignores writes. -/
def writeWord (d : Dmac) (address value : UInt32) : Reply Dmac Unit :=
  match DmaChannel.ofAddress? address with
  | some channel =>
    match DmaChannel.register? address with
    | some register =>
      ⟨(), d.setChannelWord channel register value,
        [⟨.trace, fun _ => "DMAC " ++ channel.name ++ " " ++
          Text.hexPadded 2 (address &&& 0xFF).toNat ++ " = " ++ Text.address value⟩]⟩
    | none => ⟨(), d, [invalidWrite address value]⟩
  | none =>
    match DmaRegister.ofAddress? address with
    | some register => ⟨(), d.set register value, [registerNote register address value]⟩
    | none => ⟨(), d, [invalidWrite address value]⟩

/-- A narrow write to the status register must not act on flags in the other lanes. -/
def retained (address : UInt32) : UInt32 := if address = 0x1000E010 then 0 else 0xFFFFFFFF

instance : Peripheral Dmac where
  readWord := readWord
  writeWord := writeWord
  retained := retained

end Dmac

end R5900
