/-!
# Virtual addresses

Virtual addresses are mapped by fixed segments. The scratchpad has a window of its own; one window
of uncached addresses is shifted down; everything else keeps its low 29 bits, so the same physical
address appears in many segments.
-/

namespace R5900

/-- What a virtual address names. -/
inductive Location where
  | scratchpad (offset : Nat)
  | bus (address : UInt32)
  deriving DecidableEq, Repr

/-- The first virtual address of the scratchpad. -/
def scratchpadBase : UInt32 := 0x70000000

/-- The size of the scratchpad. -/
def scratchpadSize : Nat := 16384

/-- What a virtual address names. -/
def Location.ofVirtual (address : UInt32) : Location :=
  if 0x70000000 ≤ address && address < 0x70004000 then
    .scratchpad (address - scratchpadBase).toNat
  else if 0x30100000 ≤ address && address < 0x32000000 then
    .bus ((address - 0x10000000) &&& 0x1FFFFFFF)
  else .bus (address &&& 0x1FFFFFFF)

end R5900
