/-!
# Faults and checked arithmetic

A `Fault` is a condition under which the emulator itself cannot go on, as opposed to an exception
of the emulated processor, which is ordinary behaviour. There are two kinds: an access past the end
of a backing array, and an arithmetic operation whose result does not fit its type.

`Checked` holds the arithmetic that faults instead of wrapping. It is used wherever a result is
expected to fit, so that "no run ever faults" is a statement about the whole machine. Arithmetic
that is meant to wrap uses the plain operators.
-/

namespace R5900

/-- Why the emulator cannot go on. -/
inductive Fault where
  /-- An access of `width` bytes at `offset` does not fit an array of `size` bytes. -/
  | outOfBounds (offset width size : Nat)
  /-- A sum, difference, product, quotient or shift does not fit its type. -/
  | overflow
  deriving DecidableEq, Repr

/-- A sequence of computations that may fault succeeds only if both parts do. -/
theorem exists_of_bind_eq_ok {α β : Type} {x : Except Fault α} {f : α → Except Fault β} {b : β}
    (h : (x >>= f) = .ok b) : ∃ a, x = .ok a ∧ f a = .ok b := by
  cases x with
  | error fault => cases h
  | ok a => exact ⟨a, rfl, h⟩

theorem exists_of_map_eq_ok {α β : Type} {f : α → β} {x : Except Fault α} {y : β}
    (h : f <$> x = .ok y) : ∃ a, x = .ok a ∧ f a = y := by
  cases x with
  | error fault => cases h
  | ok a => exact ⟨a, rfl, Except.ok.inj h⟩

namespace Checked

/-- The sum, if it is below `2 ^ 8`. -/
@[inline] def add8 (a b : UInt8) : Except Fault UInt8 :=
  if a + b < a then .error .overflow else .ok (a + b)

/-- The sum, if it is below `2 ^ 32`. -/
@[inline] def add32 (a b : UInt32) : Except Fault UInt32 :=
  if a + b < a then .error .overflow else .ok (a + b)

/-- The sum, if it is below `2 ^ 64`. -/
@[inline] def add64 (a b : UInt64) : Except Fault UInt64 :=
  if a + b < a then .error .overflow else .ok (a + b)

/-- The difference, if it is not negative. -/
@[inline] def sub64 (a b : UInt64) : Except Fault UInt64 :=
  if a < b then .error .overflow else .ok (a - b)

/-- The unsigned product, if it is below `2 ^ 64`. -/
@[inline] def mul64 (a b : UInt64) : Except Fault UInt64 :=
  if a.toNat * b.toNat < UInt64.size then .ok (a * b) else .error .overflow

/-- The signed product, if it lies in `[-2 ^ 63, 2 ^ 63)`. -/
@[inline] def mulSigned64 (a b : Int64) : Except Fault Int64 :=
  if Int64.minValue.toInt ≤ a.toInt * b.toInt ∧ a.toInt * b.toInt ≤ Int64.maxValue.toInt then
    .ok (a * b)
  else .error .overflow

/-- Quotient and remainder of unsigned words; the divisor must not be zero. -/
@[inline] def divMod32 (n d : UInt32) : Except Fault (UInt32 × UInt32) :=
  if d = 0 then .error .overflow else .ok (n / d, n % d)

/-- Quotient toward zero and remainder of signed words; the divisor must not be zero, and the
quotient of the least word by `-1` does not fit. -/
@[inline] def divModSigned32 (n d : Int32) : Except Fault (Int32 × Int32) :=
  if d = 0 ∨ (n = Int32.minValue ∧ d = -1) then .error .overflow else .ok (n / d, n % d)

/-- A left shift by less than the width. -/
@[inline] def shiftLeft32 (x amount : UInt32) : Except Fault UInt32 :=
  if amount < 32 then .ok (x <<< amount) else .error .overflow

/-- A logical right shift by less than the width. -/
@[inline] def shiftRight32 (x amount : UInt32) : Except Fault UInt32 :=
  if amount < 32 then .ok (x >>> amount) else .error .overflow

/-- An arithmetic right shift by less than the width. -/
@[inline] def shiftRightSigned32 (x amount : UInt32) : Except Fault UInt32 :=
  if amount < 32 then .ok (x.toInt32 >>> amount.toInt32).toUInt32 else .error .overflow

/-- A left shift by less than the width. -/
@[inline] def shiftLeft64 (x amount : UInt64) : Except Fault UInt64 :=
  if amount < 64 then .ok (x <<< amount) else .error .overflow

/-- A logical right shift by less than the width. -/
@[inline] def shiftRight64 (x amount : UInt64) : Except Fault UInt64 :=
  if amount < 64 then .ok (x >>> amount) else .error .overflow

/-- An arithmetic right shift by less than the width. -/
@[inline] def shiftRightSigned64 (x amount : UInt64) : Except Fault UInt64 :=
  if amount < 64 then .ok (x.toInt64 >>> amount.toInt64).toUInt64 else .error .overflow

/-- A checked sum is the sum of the numbers. -/
theorem toNat_of_add64 {a b c : UInt64} (h : add64 a b = .ok c) :
    c.toNat = a.toNat + b.toNat := by
  unfold add64 at h
  split at h
  · cases h
  · rename_i hle
    cases h
    rw [UInt64.lt_iff_toNat_lt, UInt64.toNat_add] at hle
    rw [UInt64.toNat_add]
    have ha := a.toNat_lt
    have hb := b.toNat_lt
    omega

end Checked

end R5900
