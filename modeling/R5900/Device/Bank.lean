import R5900.Device.Dmac
import R5900.Device.Gs
import R5900.Device.Intc
import R5900.Device.PassiveRegisters
import R5900.Device.Rdram
import R5900.Device.Sif
import R5900.Device.Timer

/-!
# The bank of devices

The devices on a bus: one of each kind that the standard machine has, and any number of attached
ones. A `Unit` names a device of the bank, and an access to a unit changes that device only.
-/

namespace R5900

/-- A device of any kind. -/
inductive Device where
  | intc (device : Intc)
  | timer (device : Timer)
  | dmac (device : Dmac)
  | gs (device : Gs)
  | sif (device : Sif)
  | rdram (device : Rdram)
  | passive (device : PassiveRegisters)

namespace Device

/-- Carry an answer over to the sum of kinds. -/
@[inline] def answer {δ α : Type} (kind : δ → Device) (reply : Except Fault (Reply δ α)) :
    Except Fault (Reply Device α) :=
  match reply with
  | .ok r => .ok ⟨r.value, kind r.device, r.notes⟩
  | .error fault => .error fault

/-- Read a value from a device of any kind. -/
def read (w : Width) (device : Device) (address : UInt32) : Except Fault (Reply Device w.Value) :=
  match device with
  | .intc d => answer .intc (Peripheral.read w d address)
  | .timer d => answer .timer (Peripheral.read w d address)
  | .dmac d => answer .dmac (Peripheral.read w d address)
  | .gs d => answer .gs (Peripheral.read w d address)
  | .sif d => answer .sif (Peripheral.read w d address)
  | .rdram d => answer .rdram (Peripheral.read w d address)
  | .passive d => answer .passive (Peripheral.read w d address)

/-- Write a value to a device of any kind. -/
def write (w : Width) (device : Device) (address : UInt32) (value : w.Value) :
    Except Fault (Reply Device Unit) :=
  match device with
  | .intc d => answer .intc (Peripheral.write w d address value)
  | .timer d => answer .timer (Peripheral.write w d address value)
  | .dmac d => answer .dmac (Peripheral.write w d address value)
  | .gs d => answer .gs (Peripheral.write w d address value)
  | .sif d => answer .sif (Peripheral.write w d address value)
  | .rdram d => answer .rdram (Peripheral.write w d address value)
  | .passive d => answer .passive (Peripheral.write w d address value)

/-- The bits of the word at an address that a narrow write carries over. -/
def retained (device : Device) (address : UInt32) : UInt32 :=
  match device with
  | .intc _ => Peripheral.retained Intc address
  | .timer _ => Peripheral.retained Timer address
  | .dmac _ => Peripheral.retained Dmac address
  | .gs _ => Peripheral.retained Gs address
  | .sif _ => Peripheral.retained Sif address
  | .rdram _ => Peripheral.retained Rdram address
  | .passive _ => Peripheral.retained PassiveRegisters address

end Device

/-- A name of a device of a bank. -/
inductive UnitId where
  | intc | timer | gs | rdram | dmac | sif
  /-- The vector interfaces. -/
  | vif
  /-- The image processor. -/
  | ipu
  /-- A device attached to a bank, counted from zero. -/
  | attached (index : Nat)
  deriving DecidableEq, Repr

/-- The devices on a bus. -/
structure Bank where
  intc : Intc
  timer : Timer
  gs : Gs
  rdram : Rdram
  dmac : Dmac
  sif : Sif
  vif : PassiveRegisters
  ipu : PassiveRegisters
  attached : Array Device

namespace Bank

/-- Every standard device in its initial state, and no attached one. -/
def initial : Bank where
  intc := .initial
  timer := .initial
  gs := .initial
  rdram := .initial
  dmac := .initial
  sif := .initial
  vif := .initial "VIF"
  ipu := .initial "IPU"
  attached := #[]

/-- Carry the answer of one device over to its bank. -/
@[inline] def answer {δ α : Type} (put : δ → Bank) (reply : Except Fault (Reply δ α)) :
    Except Fault (Reply Bank α) :=
  match reply with
  | .ok r => .ok ⟨r.value, put r.device, r.notes⟩
  | .error fault => .error fault

/-- Read a value from a unit; a unit that the bank does not have reads zero. -/
def read (w : Width) (b : Bank) (unit : UnitId) (address : UInt32) :
    Except Fault (Reply Bank w.Value) :=
  match unit with
  | .intc => answer (fun d => { b with intc := d }) (Peripheral.read w b.intc address)
  | .timer => answer (fun d => { b with timer := d }) (Peripheral.read w b.timer address)
  | .gs => answer (fun d => { b with gs := d }) (Peripheral.read w b.gs address)
  | .rdram => answer (fun d => { b with rdram := d }) (Peripheral.read w b.rdram address)
  | .dmac => answer (fun d => { b with dmac := d }) (Peripheral.read w b.dmac address)
  | .sif => answer (fun d => { b with sif := d }) (Peripheral.read w b.sif address)
  | .vif => answer (fun d => { b with vif := d }) (Peripheral.read w b.vif address)
  | .ipu => answer (fun d => { b with ipu := d }) (Peripheral.read w b.ipu address)
  | .attached i =>
    match b.attached[i]? with
    | some device =>
      answer (fun d => { b with attached := b.attached.setIfInBounds i d })
        (Device.read w device address)
    | none => .ok ⟨w.zero, b, []⟩

/-- Write a value to a unit; a unit that the bank does not have ignores writes. -/
def write (w : Width) (b : Bank) (unit : UnitId) (address : UInt32) (value : w.Value) :
    Except Fault (Reply Bank Unit) :=
  match unit with
  | .intc => answer (fun d => { b with intc := d }) (Peripheral.write w b.intc address value)
  | .timer => answer (fun d => { b with timer := d }) (Peripheral.write w b.timer address value)
  | .gs => answer (fun d => { b with gs := d }) (Peripheral.write w b.gs address value)
  | .rdram => answer (fun d => { b with rdram := d }) (Peripheral.write w b.rdram address value)
  | .dmac => answer (fun d => { b with dmac := d }) (Peripheral.write w b.dmac address value)
  | .sif => answer (fun d => { b with sif := d }) (Peripheral.write w b.sif address value)
  | .vif => answer (fun d => { b with vif := d }) (Peripheral.write w b.vif address value)
  | .ipu => answer (fun d => { b with ipu := d }) (Peripheral.write w b.ipu address value)
  | .attached i =>
    match b.attached[i]? with
    | some device =>
      answer (fun d => { b with attached := b.attached.setIfInBounds i d })
        (Device.write w device address value)
    | none => .ok ⟨(), b, []⟩

end Bank

end R5900
