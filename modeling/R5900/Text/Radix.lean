/-!
# Numbers in bases two and sixteen

Addresses and register values are written in base sixteen with lower-case digits and the mark `0x`,
either in as few digits as they need or padded with zeros to a fixed count; a number that needs more
digits than the count is written in full.
-/

namespace R5900.Text

/-- Fill a text up on the left to `count` characters. -/
def padLeft (count : Nat) (fill : Char) (text : String) : String :=
  String.ofList (List.replicate (count - text.length) fill) ++ text

/-- The digits of a number in base sixteen, as few as it needs. -/
def hexDigits (n : Nat) : String := String.ofList (Nat.toDigits 16 n)

/-- A number in base sixteen after the mark `0x`. -/
def hex (n : Nat) : String := "0x" ++ hexDigits n

/-- A number in base sixteen after the mark `0x`, padded to `count` digits. -/
def hexPadded (count n : Nat) : String := "0x" ++ padLeft count '0' (hexDigits n)

/-- A byte in two digits of base sixteen, without a mark. -/
def hexByte (b : UInt8) : String := padLeft 2 '0' (hexDigits b.toNat)

/-- A number in base two after the mark `0b`, padded to `count` digits. -/
def binaryPadded (count n : Nat) : String :=
  "0b" ++ padLeft count '0' (String.ofList (Nat.toDigits 2 n))

/-- A word as an address: `0x` and eight digits. -/
def address (a : UInt32) : String := hexPadded 8 a.toNat

/-- The value of a digit in base sixteen, in either case. -/
def hexDigit? (c : Char) : Option Nat :=
  if '0' ≤ c ∧ c ≤ '9' then some (c.toNat - '0'.toNat)
  else if 'a' ≤ c ∧ c ≤ 'f' then some (c.toNat - 'a'.toNat + 10)
  else if 'A' ≤ c ∧ c ≤ 'F' then some (c.toNat - 'A'.toNat + 10)
  else none

/-- The value of a digit in base ten. -/
def decimalDigit? (c : Char) : Option Nat :=
  if '0' ≤ c ∧ c ≤ '9' then some (c.toNat - '0'.toNat) else none

/-- Read a list of digits, most significant first; at least one is needed. -/
def readDigits? (base : Nat) (digit? : Char → Option Nat) : List Char → Option Nat
  | [] => none
  | cs => cs.foldlM (fun n c => (digit? c).map (n * base + ·)) 0

/-- Read an unsigned number below `limit`: one plus sign may come first, then only digits. -/
def readUnsigned? (base : Nat) (digit? : Char → Option Nat) (limit : Nat) (text : List Char) :
    Option Nat :=
  let digits := match text with
    | '+' :: rest => rest
    | cs => cs
  (readDigits? base digit? digits).filter (· < limit)

end R5900.Text
