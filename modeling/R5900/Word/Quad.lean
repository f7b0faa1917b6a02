/-!
# Quadwords

A quadword is 128 bits wide and is kept as two doublewords. The processor's registers are quadwords:
most instructions see the low doubleword only, the second multiply pipeline lives in the high one,
and the parallel instructions use both.
-/

namespace R5900

/-- A 128-bit word as its low and high doublewords. -/
structure Quad where
  lo : UInt64
  hi : UInt64
  deriving DecidableEq, Repr, Inhabited

namespace Quad

/-- The quadword with all bits clear. -/
def zero : Quad := ⟨0, 0⟩

/-- How many quadwords there are. -/
def size : Nat := UInt64.size * UInt64.size

/-- The unsigned number a quadword denotes. -/
def toNat (q : Quad) : Nat := q.hi.toNat * UInt64.size + q.lo.toNat

/-- The two's complement number a quadword denotes. -/
def toInt (q : Quad) : Int :=
  if 2 * q.toNat < size then q.toNat else (q.toNat : Int) - size

/-- The low 128 bits of a number. -/
def ofNat (n : Nat) : Quad := ⟨UInt64.ofNat n, UInt64.ofNat (n >>> 64)⟩

/-- A doubleword, zero-extended. -/
def ofLow (x : UInt64) : Quad := ⟨x, 0⟩

/-- Replace the low doubleword and keep the high one. -/
def withLow (q : Quad) (x : UInt64) : Quad := ⟨x, q.hi⟩

/-- Replace the high doubleword and keep the low one. -/
def withHigh (q : Quad) (x : UInt64) : Quad := ⟨q.lo, x⟩

/-- Bitwise conjunction. -/
def and (a b : Quad) : Quad := ⟨a.lo &&& b.lo, a.hi &&& b.hi⟩

/-- Bitwise disjunction. -/
def or (a b : Quad) : Quad := ⟨a.lo ||| b.lo, a.hi ||| b.hi⟩

/-- Bitwise exclusive disjunction. -/
def xor (a b : Quad) : Quad := ⟨a.lo ^^^ b.lo, a.hi ^^^ b.hi⟩

/-- Bitwise complement. -/
def not (a : Quad) : Quad := ⟨~~~a.lo, ~~~a.hi⟩

/-- The byte of weight `256 ^ i`; zero past the sixteenth byte. -/
def byte (q : Quad) (i : Nat) : UInt8 :=
  if i < 8 then (q.lo >>> UInt64.ofNat (8 * i)).toUInt8
  else if i < 16 then (q.hi >>> UInt64.ofNat (8 * (i - 8))).toUInt8
  else 0

@[simp] theorem withLow_lo (q : Quad) (x : UInt64) : (q.withLow x).lo = x := rfl
@[simp] theorem withLow_hi (q : Quad) (x : UInt64) : (q.withLow x).hi = q.hi := rfl
@[simp] theorem withHigh_lo (q : Quad) (x : UInt64) : (q.withHigh x).lo = q.lo := rfl
@[simp] theorem withHigh_hi (q : Quad) (x : UInt64) : (q.withHigh x).hi = x := rfl

end Quad

end R5900
