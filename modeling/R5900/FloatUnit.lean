import R5900.BitField
import R5900.Instruction.Basic

/-!
# The float unit

Thirty-two registers of 32 bits and a control register with the condition of the last comparison.
Registers hold bits: moves, sign operations and transfers act on the bits alone, and arithmetic and
comparisons read them as IEEE single-precision numbers.
-/

namespace R5900

/-- The float unit. -/
structure FloatUnit where
  registers : Vector UInt32 32
  control : UInt32
  deriving DecidableEq, Repr

/-- The result of a float operation on two registers. -/
def FloatOp.eval (op : FloatOp) (a b : UInt32) : UInt32 :=
  let x := Float32.ofBits a
  let y := Float32.ofBits b
  (match op with
    | .add => x + y
    | .sub => x - y
    | .mul => x * y
    | .div => x / y).toBits

/-- The result of a float operation on one register. Conversion to a word goes toward zero, stops at
the least and the greatest word, and gives zero for what is not a number. -/
def FloatMapOp.eval (op : FloatMapOp) (a : UInt32) : UInt32 :=
  match op with
  | .abs => a &&& 0x7FFFFFFF
  | .mov => a
  | .neg => a ^^^ 0x80000000
  | .toWord => (Float32.ofBits a).toInt32.toUInt32
  | .ofWord => a.toInt32.toFloat32.toBits

/-- The outcome of a float comparison. -/
def FloatTest.eval (test : FloatTest) (a b : UInt32) : Bool :=
  let x := Float32.ofBits a
  let y := Float32.ofBits b
  match test with
  | .eq => x == y
  | .lt => x < y
  | .le => x ≤ y

namespace FloatUnit

/-- All registers clear. -/
def initial : FloatUnit := ⟨Vector.replicate 32 0, 0⟩

/-- The bits of a register. -/
@[inline] def get (u : FloatUnit) (r : Fpr) : UInt32 := u.registers[r.index]

/-- Replace the bits of a register. -/
@[inline] def put (u : FloatUnit) (r : Fpr) (value : UInt32) : FloatUnit :=
  { u with registers := u.registers.set r.index value }

/-- Read a control register: the first identifies the unit, the last is the control register. -/
def getControl (u : FloatUnit) (r : Fpr) : UInt32 :=
  if r.index.val = 0 then 0x2E30 else if r.index.val = 31 then u.control else 0

/-- Write a control register; only the last can be written. -/
def setControl (u : FloatUnit) (r : Fpr) (value : UInt32) : FloatUnit :=
  if r.index.val = 31 then { u with control := value } else u

/-- The condition of the last comparison. -/
@[inline] def condition (u : FloatUnit) : Bool := testBit32 u.control 23

/-- Record the condition of a comparison. -/
def setCondition (u : FloatUnit) (value : Bool) : FloatUnit :=
  { u with control := putBit32 u.control 23 value }

end FloatUnit

end R5900
