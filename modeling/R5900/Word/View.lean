import R5900.Word.Quad
import R5900.Word.SignExtend
import R5900.Word.Width

/-!
# Typed views of a register

A register is a quadword that software sees as a number of some width, with or without a sign. A
word written through a view is sign-extended into the low doubleword, whether the view has a sign or
not; a doubleword replaces the low doubleword; both keep the high doubleword.
-/

namespace R5900

/-- A way to see a register as a number. -/
structure View where
  signed : Bool
  width : Width
  deriving DecidableEq, Repr

namespace View

/-- The number a register shows in a view. -/
def read (v : View) (q : Quad) : Int :=
  let modulus : Nat := 1 <<< (8 * v.width.bytes)
  let n := q.toNat % modulus
  if v.signed ∧ modulus ≤ 2 * n then (n : Int) - modulus else n

/-- The register after a value was written through a view. Views narrower than a word cannot be
written through. -/
def write (v : View) (q : Quad) (value : Quad) : Quad :=
  match v.width with
  | .byte | .half => q
  | .word => q.withLow (signExtend32 value.lo.toUInt32)
  | .double => q.withLow value.lo
  | .quad => value

end View

end R5900
