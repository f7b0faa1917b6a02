/-!
# The journal

Every part of the machine reports what it does as notes. A note has a level and a text that is only
spelt out when someone reads it. A journal keeps the notes up to a threshold, in the order in which
they were made, and drops the others at once.
-/

namespace R5900

/-- How much a note matters, most important first. -/
inductive Level where
  | error | warn | info | debug | trace
  deriving DecidableEq, Repr

namespace Level

/-- The rank of a level: notes of a higher rank are dropped first. -/
def rank : Level → Nat
  | .error => 1
  | .warn => 2
  | .info => 3
  | .debug => 4
  | .trace => 5

/-- The mark of a level in a journal line. -/
def mark : Level → String
  | .error => "ERROR"
  | .warn => "WARN"
  | .info => "INFO"
  | .debug => "DEBUG"
  | .trace => "TRACE"

/-- The level of a name, in any case of letters, or of its rank. -/
def ofName? (name : String) : Option Level :=
  [error, warn, info, debug, trace].find? fun l =>
    l.mark = name.toUpper || toString l.rank = name

end Level

/-- A report of something that happened. -/
structure Note where
  level : Level
  /-- The text, spelt out on demand. -/
  text : Unit → String

namespace Note

/-- The line of a note in a printed journal. -/
def line (n : Note) : String := n.level.mark ++ " " ++ n.text ()

end Note

/-- The notes kept so far; nothing is kept if there is no threshold. -/
structure Journal where
  threshold : Option Level
  notes : Array Note

namespace Journal

/-- The journal that keeps nothing. -/
def silent : Journal := ⟨none, #[]⟩

/-- An empty journal that keeps notes up to a threshold. -/
def upTo (threshold : Option Level) : Journal := ⟨threshold, #[]⟩

/-- Whether notes of a level are kept. -/
@[inline] def keeps (j : Journal) (level : Level) : Bool :=
  match j.threshold with
  | none => false
  | some t => level.rank ≤ t.rank

/-- Add a note. -/
@[inline] def add (j : Journal) (n : Note) : Journal :=
  if j.keeps n.level then { j with notes := j.notes.push n } else j

/-- Add notes in order. -/
def addAll (j : Journal) (notes : List Note) : Journal := notes.foldl add j

/-- The lines of a journal, oldest first. -/
def lines (j : Journal) : List String := (j.notes.map Note.line).toList

end Journal

end R5900
