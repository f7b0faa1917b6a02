import R5900.Fault
import R5900.Word.Quad

/-!
# Access widths

The bus moves values of five widths, from a byte to a quadword. `Width.Value w` is the type of the
values of width `w`; every value embeds into a quadword by zero extension (`toQuad`) and every
quadword truncates to a value (`ofQuad`). Bytes are little-endian throughout.
-/

namespace R5900

/-- How many bytes an access moves. -/
inductive Width where
  | byte | half | word | double | quad
  deriving DecidableEq, Repr

namespace Width

/-- The number of bytes of a width. -/
def bytes : Width → Nat
  | .byte => 1
  | .half => 2
  | .word => 4
  | .double => 8
  | .quad => 16

/-- The width with the given number of bits. -/
def ofBits? : Nat → Option Width
  | 8 => some .byte
  | 16 => some .half
  | 32 => some .word
  | 64 => some .double
  | 128 => some .quad
  | _ => none

/-- The values of a width. -/
abbrev Value : Width → Type
  | .byte => UInt8
  | .half => UInt16
  | .word => UInt32
  | .double => UInt64
  | .quad => Quad

/-- The value zero. -/
def zero : (w : Width) → w.Value
  | .byte => (0 : UInt8)
  | .half => (0 : UInt16)
  | .word => (0 : UInt32)
  | .double => (0 : UInt64)
  | .quad => Quad.zero

/-- Zero-extend a value to a quadword. -/
def toQuad : (w : Width) → w.Value → Quad
  | .byte, v => .ofLow (UInt8.toUInt64 v)
  | .half, v => .ofLow (UInt16.toUInt64 v)
  | .word, v => .ofLow (UInt32.toUInt64 v)
  | .double, v => .ofLow v
  | .quad, v => v

/-- Keep the low bits of a quadword. -/
def ofQuad : (w : Width) → Quad → w.Value
  | .byte, q => q.lo.toUInt8
  | .half, q => q.lo.toUInt16
  | .word, q => q.lo.toUInt32
  | .double, q => q.lo
  | .quad, q => q

/-- Reinterpret a value of one width as another, zero-extending or truncating. -/
def convert (source target : Width) (v : source.Value) : target.Value :=
  target.ofQuad (source.toQuad v)

/-- The byte of weight `256 ^ i` of a value. -/
def byteAt (w : Width) (v : w.Value) (i : Nat) : UInt8 := (w.toQuad v).byte i

/-- The bytes of a value, lowest weight first. -/
def toBytes (w : Width) (v : w.Value) : List UInt8 := (List.range w.bytes).map (w.byteAt v)

end Width

/-- The halfword with the given bytes, lowest weight first. -/
@[inline] def joinHalf (a b : UInt8) : UInt16 := a.toUInt16 ||| b.toUInt16 <<< 8

/-- The word with the given bytes, lowest weight first. -/
@[inline] def joinWord (a b c d : UInt8) : UInt32 :=
  a.toUInt32 ||| b.toUInt32 <<< 8 ||| c.toUInt32 <<< 16 ||| d.toUInt32 <<< 24

/-- The doubleword with the given words, lower one first. -/
@[inline] def joinDouble (low high : UInt32) : UInt64 := high.toUInt64 <<< 32 ||| low.toUInt64

namespace Width

/-- The value whose byte of weight `256 ^ i` is `f i`. -/
@[inline] def ofByteFn (w : Width) (f : Nat → UInt8) : w.Value :=
  match w with
  | .byte => f 0
  | .half => joinHalf (f 0) (f 1)
  | .word => joinWord (f 0) (f 1) (f 2) (f 3)
  | .double => joinDouble (joinWord (f 0) (f 1) (f 2) (f 3)) (joinWord (f 4) (f 5) (f 6) (f 7))
  | .quad =>
    ⟨joinDouble (joinWord (f 0) (f 1) (f 2) (f 3)) (joinWord (f 4) (f 5) (f 6) (f 7)),
     joinDouble (joinWord (f 8) (f 9) (f 10) (f 11)) (joinWord (f 12) (f 13) (f 14) (f 15))⟩

/-- The value spelt by the first bytes of a list; the list must be long enough. -/
def ofBytes (w : Width) (bytes : List UInt8) : Except Fault w.Value :=
  if w.bytes ≤ bytes.length then .ok (w.ofByteFn fun i => bytes.getD i 0)
  else .error (.outOfBounds 0 w.bytes bytes.length)

end Width

end R5900
