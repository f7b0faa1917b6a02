/-!
# Regions of the bus

Where a device answers: at one register slot of 16 bytes, or over a range of addresses.
-/

namespace R5900

/-- A set of bus addresses that a device answers at. -/
inductive Region where
  /-- The slot of 16 bytes that starts at an address. -/
  | slot (start : UInt32)
  /-- The addresses from `start` up to but not including `stop`. -/
  | range (start stop : UInt32)
  deriving DecidableEq, Repr

/-- Whether a region contains an address. A slot whose start is not a multiple of 16 contains
none. -/
def Region.contains (region : Region) (address : UInt32) : Bool :=
  match region with
  | .slot start => address &&& ~~~0xF = start
  | .range start stop => start ≤ address && address < stop

end R5900
