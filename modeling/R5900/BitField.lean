import R5900.Fault

/-!
# Bit fields of packed words

A `BitRange` names a run of bit positions by two ends, each included, excluded or left open. `mask`,
`extract` and `insert` build and use the mask of a range on a word of any width.

The mask of `n` bits is the all-ones word shifted down by `width - n`, so a mask of the whole word
needs no shift by the width. Positions are numbers of an index type of `indexBits` bits, and a sum
of positions that leaves the index type, a range that runs backwards and a shift by the width or
more are faults: the functions answer exactly when none of these happens.
-/

namespace R5900

/-- One end of a range of bit positions. -/
inductive Bound where
  | included (position : Nat)
  | excluded (position : Nat)
  | unbounded
  deriving DecidableEq, Repr

/-- A range of bit positions. -/
structure BitRange where
  first : Bound
  last : Bound
  deriving DecidableEq, Repr

namespace BitRange

/-- The position after `n`, if the index type holds it. -/
def successor (indexBits n : Nat) : Except Fault Nat :=
  if n + 1 < 1 <<< indexBits then .ok (n + 1) else .error .overflow

/-- The first position of a range. -/
def start (indexBits : Nat) (range : BitRange) : Except Fault Nat :=
  match range.first with
  | .included n => .ok n
  | .excluded n => successor indexBits n
  | .unbounded => .ok 0

/-- The position after the last one of a range of a word of `width` bits. -/
def stop (indexBits width : Nat) (range : BitRange) : Except Fault Nat :=
  match range.last with
  | .included n => successor indexBits n
  | .excluded n => .ok n
  | .unbounded => .ok width

end BitRange

namespace BitField

variable {w : Nat}

/-- A left shift by less than the width. -/
def shiftLeft (x : BitVec w) (amount : Nat) : Except Fault (BitVec w) :=
  if amount < w then .ok (x <<< amount) else .error .overflow

/-- A right shift by less than the width. -/
def shiftRight (x : BitVec w) (amount : Nat) : Except Fault (BitVec w) :=
  if amount < w then .ok (x >>> amount) else .error .overflow

/-- The word whose low `stop - start` bits are set. -/
def ones (start stop : Nat) : Except Fault (BitVec w) :=
  if start ≤ stop ∧ stop - start ≤ w then shiftRight (BitVec.allOnes w) (w - (stop - start))
  else .error .overflow

/-- The word with exactly the bits of a range set. -/
def mask (indexBits : Nat) (range : BitRange) : Except Fault (BitVec w) := do
  let start ← range.start indexBits
  let stop ← range.stop indexBits w
  shiftLeft (← ones start stop) start

/-- The bits of a range, moved down to position zero. -/
def extract (indexBits : Nat) (range : BitRange) (x : BitVec w) : Except Fault (BitVec w) := do
  let start ← range.start indexBits
  let stop ← range.stop indexBits w
  return (← shiftRight x start) &&& (← ones start stop)

/-- Replace the bits of a range by the low bits of `value`. -/
def insert (indexBits : Nat) (range : BitRange) (x value : BitVec w) : Except Fault (BitVec w) := do
  let start ← range.start indexBits
  let m ← mask indexBits range
  return x &&& ~~~m ||| (← shiftLeft value start) &&& m

/-- The bit at a position. -/
def bit (x : BitVec w) (position : Nat) : Except Fault Bool := do
  let m ← shiftLeft (1 : BitVec w) position
  return x &&& m != 0

/-- Replace the bit at a position. -/
def insertBit (x : BitVec w) (position : Nat) (value : Bool) : Except Fault (BitVec w) := do
  let m ← shiftLeft (1 : BitVec w) position
  return x &&& ~~~m ||| (if value then m else 0)

end BitField

/-- The `length` bits of a word from bit `start` up, as a number below `2 ^ length`. -/
@[inline] def field32 (x start length : UInt32) : UInt32 := (x >>> start) &&& ((1 <<< length) - 1)

/-- Whether a bit of a word is set. -/
@[inline] def testBit32 (x position : UInt32) : Bool := x &&& (1 <<< position) != 0

/-- Set or clear a bit of a word. -/
@[inline] def putBit32 (x position : UInt32) (value : Bool) : UInt32 :=
  x &&& ~~~(1 <<< position) ||| (if value then 1 <<< position else 0)

/-- Whether a bit of a halfword is set. -/
@[inline] def testBit16 (x position : UInt16) : Bool := x &&& (1 <<< position) != 0

/-- Set or clear a bit of a halfword. -/
@[inline] def putBit16 (x position : UInt16) (value : Bool) : UInt16 :=
  x &&& ~~~(1 <<< position) ||| (if value then 1 <<< position else 0)

/-- Whether a bit of a doubleword is set. -/
@[inline] def testBit64 (x position : UInt64) : Bool := x &&& (1 <<< position) != 0

/-- Set or clear a bit of a doubleword. -/
@[inline] def putBit64 (x position : UInt64) (value : Bool) : UInt64 :=
  x &&& ~~~(1 <<< position) ||| (if value then 1 <<< position else 0)

end R5900
