import R5900.BitField
import R5900.Text.Radix
import R5900.Device.Peripheral

/-!
# The timers

Four counters run on the bus clock through a prescaler. A counter that reaches its comparison value
or wraps can raise an interrupt; the flag it sets keeps it from raising another one until the flag is
acknowledged by writing one to it. The comparison can also return the counter to zero.
-/

namespace R5900

/-- One timer. -/
structure Counter where
  count : UInt16
  mode : UInt16
  compare : UInt16
  /-- Holds what is written; only the first two timers have it. -/
  hold : UInt16
  /-- Bus cycles since the last increment. -/
  prescaler : UInt32
  deriving DecidableEq, Repr

namespace Counter

/-- The position of the flag of a comparison match. -/
def equalFlag : UInt16 := 10
/-- The position of the flag of a wrap. -/
def overflowFlag : UInt16 := 11

/-- A stopped timer. -/
def initial : Counter := ⟨0, 0, 0, 0, 0⟩

/-- Whether a match returns the counter to zero. -/
@[inline] def returnsToZero (c : Counter) : Bool := testBit16 c.mode 6
/-- Whether the timer runs. -/
@[inline] def runs (c : Counter) : Bool := testBit16 c.mode 7
/-- Whether a match raises an interrupt. -/
@[inline] def matchInterrupt (c : Counter) : Bool := testBit16 c.mode 8
/-- Whether a wrap raises an interrupt. -/
@[inline] def overflowInterrupt (c : Counter) : Bool := testBit16 c.mode 9
/-- Whether a match is waiting to be acknowledged. -/
@[inline] def equalFlagged (c : Counter) : Bool := testBit16 c.mode equalFlag
/-- Whether a wrap is waiting to be acknowledged. -/
@[inline] def overflowFlagged (c : Counter) : Bool := testBit16 c.mode overflowFlag

/-- Bus cycles for one increment; none for the clock of the display, which is not modelled. -/
def divider? (c : Counter) : Option UInt32 :=
  match c.mode &&& 3 with
  | 0 => some 1
  | 1 => some 16
  | 2 => some 256
  | _ => none

/-- Increment the counter, and whether that raises an interrupt. Whether a flag is set is decided by
the mode before the increment. -/
def increment (c : Counter) : Counter × Bool :=
  let count := c.count + 1
  let matched := count = c.compare
  let equal := matched && c.matchInterrupt && !c.equalFlagged
  let overflow := count = 0 && c.overflowInterrupt && !c.overflowFlagged
  let mode := if equal then putBit16 c.mode equalFlag true else c.mode
  let mode := if overflow then putBit16 mode overflowFlag true else mode
  let count := if matched && c.returnsToZero then 0 else count
  ({ c with count, mode }, equal || overflow)

/-- Pass one bus cycle, and whether that raises an interrupt. -/
def step (c : Counter) : Except Fault (Counter × Bool) :=
  if !c.runs then .ok (c, false)
  else match c.divider? with
    | none => .ok (c, false)
    | some divider => do
      let prescaler ← Checked.add32 c.prescaler 1
      if prescaler < divider then return ({ c with prescaler }, false)
      return { c with prescaler := 0 }.increment

/-- The mode after a write: a flag stays set unless one is written to it, and never becomes set. -/
def writeMode (c : Counter) (value : UInt16) : UInt16 :=
  let mode := putBit16 value equalFlag
    (c.equalFlagged && !testBit16 value equalFlag)
  putBit16 mode overflowFlag
    (c.overflowFlagged && !testBit16 value overflowFlag)

end Counter

/-- The four timers and the interrupts raised since they were last taken. -/
structure Timer where
  counters : Vector Counter 4
  /-- One bit for each timer. -/
  raised : UInt8
  deriving DecidableEq, Repr

namespace Timer

/-- The address of the first timer. -/
def base : UInt32 := 0x10000000
/-- The distance between timers. -/
def stride : UInt32 := 0x800

/-- Four stopped timers. -/
def initial : Timer := ⟨Vector.replicate 4 Counter.initial, 0⟩

/-- Pass one bus cycle on one timer. -/
def stepCounter (t : Timer) (i : Fin 4) : Except Fault Timer :=
  if !t.counters[i].runs then .ok t
  else do
    let (counter, interrupt) ← t.counters[i].step
    return ⟨t.counters.set i counter,
      if interrupt then t.raised ||| (1 <<< UInt8.ofNat i.val) else t.raised⟩

/-- Pass one bus cycle on every timer. -/
def step (t : Timer) : Except Fault Timer := do
  let t ← t.stepCounter 0
  let t ← t.stepCounter 1
  let t ← t.stepCounter 2
  t.stepCounter 3

/-- The interrupts raised since the last call, one bit for each timer. -/
def take (t : Timer) : UInt8 × Timer := (t.raised, { t with raised := 0 })

/-- The timer an address belongs to. -/
def index? (address : UInt32) : Option (Fin 4) :=
  let i := ((address - base) / stride).toNat
  if h : i < 4 then some ⟨i, h⟩ else none

/-- The offset of an address in the registers of its timer. -/
@[inline] def offset (address : UInt32) : UInt32 := address &&& 0x7FF

/-- What a read of no register reports. -/
def invalidRead (address : UInt32) : Note :=
  ⟨.warn, fun _ => "Invalid TIMER read at " ++ Text.address address⟩

/-- What a write to no register reports. -/
def invalidWrite (address value : UInt32) : Note :=
  ⟨.warn, fun _ => "Invalid TIMER write of " ++ Text.hex value.toNat ++ " at " ++
    Text.address address⟩

/-- Read a register; every other address reads zero. -/
def readWord (t : Timer) (address : UInt32) : Reply Timer UInt32 :=
  match index? address with
  | none => ⟨0, t, [invalidRead address]⟩
  | some i =>
    let c := t.counters[i]
    match offset address with
    | 0x00 => ⟨c.count.toUInt32, t, []⟩
    | 0x10 => ⟨c.mode.toUInt32, t, []⟩
    | 0x20 => ⟨c.compare.toUInt32, t, []⟩
    | 0x30 =>
      if i.val < 2 then ⟨c.hold.toUInt32, t, []⟩ else ⟨0, t, [invalidRead address]⟩
    | _ => ⟨0, t, [invalidRead address]⟩

/-- What writing a register of a timer reports. -/
def registerNote (level : Level) (i : Fin 4) (register : String) (value : Unit → String) : Note :=
  ⟨level, fun _ => "Timer " ++ toString i.val ++ " " ++ register ++ ": " ++ value ()⟩

/-- Write the low half of a word to a register; every other address ignores writes. Writing the
count starts a new prescaler period. -/
def writeWord (t : Timer) (address word : UInt32) : Reply Timer Unit :=
  match index? address with
  | none => ⟨(), t, [invalidWrite address word]⟩
  | some i =>
    let value := word.toUInt16
    let c := t.counters[i]
    match offset address with
    | 0x00 =>
      ⟨(), { t with counters := t.counters.set i { c with count := value, prescaler := 0 } },
        [registerNote .trace i "count" fun _ => Text.hexPadded 4 value.toNat]⟩
    | 0x10 =>
      let mode := c.writeMode value
      ⟨(), { t with counters := t.counters.set i { c with mode } },
        [registerNote .debug i "mode" fun _ => Text.binaryPadded 12 mode.toNat]⟩
    | 0x20 =>
      ⟨(), { t with counters := t.counters.set i { c with compare := value } },
        [registerNote .trace i "compare" fun _ => Text.hexPadded 4 value.toNat]⟩
    | 0x30 =>
      if i.val < 2 then ⟨(), { t with counters := t.counters.set i { c with hold := value } }, []⟩
      else ⟨(), t, [invalidWrite address value.toUInt32]⟩
    | _ => ⟨(), t, [invalidWrite address value.toUInt32]⟩

/-- A narrow write to a mode register must not acknowledge flags in the other lanes. -/
def retained (address : UInt32) : UInt32 :=
  if offset address = 0x10 then ~~~0xC00 else 0xFFFFFFFF

instance : Peripheral Timer where
  readWord := readWord
  writeWord := writeWord
  retained := retained

end Timer

end R5900
