/-!
# Registers of the processor

Three families of thirty-two registers are named by five-bit fields of an instruction: general
registers, system control registers and float registers. `Reg` is a general register or one of the
two halves of the multiply result, which no instruction field names.
-/

namespace R5900

/-- A general register. -/
structure Gpr where
  index : Fin 32
  deriving DecidableEq, Repr, Inhabited

namespace Gpr

/-- The register that always reads zero. -/
def zero : Gpr := ⟨0⟩

/-- The register that linking jumps and branches write. -/
def ra : Gpr := ⟨31⟩

/-- The register a five-bit field names; higher bits are ignored. -/
@[inline] def ofField (n : UInt32) : Gpr := ⟨Fin.ofNat 32 n.toNat⟩

/-- The conventional names, in order of the index. -/
def names : Vector String 32 :=
  #v["zero", "at", "v0", "v1", "a0", "a1", "a2", "a3", "t0", "t1", "t2", "t3", "t4", "t5", "t6",
    "t7", "s0", "s1", "s2", "s3", "s4", "s5", "s6", "s7", "t8", "t9", "k0", "k1", "gp", "sp", "fp",
    "ra"]

/-- The conventional name of a register. -/
def name (r : Gpr) : String := names.get r.index

/-- The general registers in order of the index. -/
def all : List Gpr := (List.finRange 32).map Gpr.mk

end Gpr

/-- A general register or a half of the multiply result. -/
inductive Reg where
  | gpr (r : Gpr)
  | lo
  | hi
  deriving DecidableEq, Repr

namespace Reg

/-- The name of a register. -/
def name : Reg → String
  | .gpr r => r.name
  | .lo => "lo"
  | .hi => "hi"

/-- Every register: the general ones, then `lo` and `hi`. -/
def all : List Reg := Gpr.all.map .gpr ++ [.lo, .hi]

/-- The register of a name. -/
def ofName? (name : String) : Option Reg := all.find? (·.name = name)

end Reg

/-- A system control register. -/
structure ControlReg where
  index : Fin 32
  deriving DecidableEq, Repr, Inhabited

namespace ControlReg

/-- The address that an address exception was about. -/
def badVAddr : ControlReg := ⟨8⟩
/-- The cycle counter. -/
def count : ControlReg := ⟨9⟩
/-- The counter value that latches the timer line. -/
def compare : ControlReg := ⟨11⟩
/-- Enables, privilege and exception level. -/
def status : ControlReg := ⟨12⟩
/-- The reason of the last exception, and the pending lines. -/
def cause : ControlReg := ⟨13⟩
/-- Where to resume after an exception. -/
def epc : ControlReg := ⟨14⟩
/-- The processor's identification, which cannot be written. -/
def prId : ControlReg := ⟨15⟩
/-- Where to resume after an error. -/
def errorEpc : ControlReg := ⟨30⟩

/-- The register a five-bit field names; higher bits are ignored. -/
@[inline] def ofField (n : UInt32) : ControlReg := ⟨Fin.ofNat 32 n.toNat⟩

/-- The names, in order of the index. -/
def names : Vector String 32 :=
  #v["Index", "Random", "EntryLo0", "EntryLo1", "Context", "PageMask", "Wired", "Undefined7",
    "BadVAddr", "Count", "EntryHi", "Compare", "Status", "Cause", "Epc", "PrId", "Config",
    "Undefined17", "Undefined18", "Undefined19", "Undefined20", "Undefined21", "Undefined22",
    "BadPAddr", "Debug", "Perf", "Undefined26", "Undefined27", "TagLo", "TagHi", "ErrorEpc",
    "Undefined31"]

/-- The name of a register. -/
def name (r : ControlReg) : String := names.get r.index

/-- The control registers in order of the index. -/
def all : List ControlReg := (List.finRange 32).map ControlReg.mk

/-- The register of a name. -/
def ofName? (name : String) : Option ControlReg := all.find? (·.name = name)

end ControlReg

/-- A float register. -/
structure Fpr where
  index : Fin 32
  deriving DecidableEq, Repr, Inhabited

namespace Fpr

/-- The register a five-bit field names; higher bits are ignored. -/
@[inline] def ofField (n : UInt32) : Fpr := ⟨Fin.ofNat 32 n.toNat⟩

/-- The name of a register: `f` and its index. -/
def name (r : Fpr) : String := "f" ++ toString r.index.val

/-- The float registers in order of the index. -/
def all : List Fpr := (List.finRange 32).map Fpr.mk

end Fpr

end R5900
