import R5900.Simulation

/-!
# Command line arguments

A command line names one file and any number of options. `Arguments.parse` reads it from left to
right: an option that takes a value takes the next argument, whatever it looks like, and may be
given once; `--` ends the options; every other argument is the file.

Numbers of cycles and the divider are decimal. The entry address is in base sixteen, and any number
of marks `0x`, followed by any number of marks `0X`, may come before its digits.
-/

namespace R5900

/-- What a command line asks for. -/
structure Arguments where
  /-- List the file instead of running it. -/
  disassemble : Bool
  /-- The boot image to run. -/
  boot : Option String
  /-- Which notes to print. -/
  log : Option String
  /-- The cycles to run; none means without end. -/
  cycles : Option UInt64
  /-- Where to start. -/
  entry : Option UInt32
  /-- Processor cycles for one bus cycle. -/
  busDivider : Option UInt64
  /-- The executable file. -/
  file : Option String
  deriving DecidableEq, Repr

/-- Why a command line is refused. -/
inductive ArgumentError where
  /-- There is no such option, or no place for another file. -/
  | unknown (argument : String)
  | missingValue (option : String)
  | repeated (option : String)
  | badValue (option value : String)
  /-- Options must not follow the wish for help. -/
  | afterHelp
  deriving DecidableEq, Repr

/-- The text of an argument error. -/
def ArgumentError.text : ArgumentError → String
  | .unknown argument => "Unrecognized argument: " ++ argument
  | .missingValue option => "No value provided for option '" ++ option ++ "'."
  | .repeated option => "Option '" ++ option ++ "' was given twice."
  | .badValue option value => "Option '" ++ option ++ "' cannot take the value '" ++ value ++ "'."
  | .afterHelp => "Trailing arguments are not allowed after `help`."

/-- What to do for a command line. -/
inductive Request where
  | help
  | run (arguments : Arguments)
  deriving DecidableEq, Repr

/-- The options that take a value. -/
inductive Setting where
  | boot | log | cycles | entry | busDivider
  deriving DecidableEq, Repr

/-- The option of a name. -/
def Setting.ofName? : String → Option Setting
  | "-b" | "--bios" => some .boot
  | "--log" => some .log
  | "--cycles" => some .cycles
  | "-e" | "--entry" => some .entry
  | "--bus-divider" => some .busDivider
  | _ => none

/-- Drop a mark of a zero and a letter as often as it comes first. -/
def dropMarks (letter : Char) : List Char → List Char
  | '0' :: c :: rest => if c = letter then dropMarks letter rest else '0' :: c :: rest
  | cs => cs

/-- Read an address in base sixteen. -/
def readAddress? (text : String) : Option UInt32 :=
  (Text.readUnsigned? 16 Text.hexDigit? UInt32.size (dropMarks 'X' (dropMarks 'x' text.toList))).map
    UInt32.ofNat

/-- Read a decimal number of 64 bits. -/
def readCount? (text : String) : Option UInt64 :=
  (Text.readUnsigned? 10 Text.decimalDigit? UInt64.size text.toList).map UInt64.ofNat

/-- The value of an option that held `old` before and is given `new` now. -/
def fillSlot {α : Type} (name value : String) (old new : Option α) :
    Except ArgumentError (Option α) :=
  match old, new with
  | some _, _ => .error (.repeated name)
  | none, none => .error (.badValue name value)
  | none, some a => .ok (some a)

namespace Arguments

/-- The arguments when nothing is given. -/
def empty : Arguments := ⟨false, none, none, none, none, none, none⟩

/-- Give an option its value. -/
def set (a : Arguments) (s : Setting) (name value : String) : Except ArgumentError Arguments := do
  match s with
  | .boot => return { a with boot := ← fillSlot name value a.boot (some value) }
  | .log => return { a with log := ← fillSlot name value a.log (some value) }
  | .cycles => return { a with cycles := ← fillSlot name value a.cycles (readCount? value) }
  | .entry => return { a with entry := ← fillSlot name value a.entry (readAddress? value) }
  | .busDivider =>
    return { a with busDivider := ← fillSlot name value a.busDivider (readCount? value) }

/-- Take the one argument that is no option. -/
def setFile (a : Arguments) (file : String) : Except ArgumentError Arguments :=
  match a.file with
  | none => .ok { a with file := some file }
  | some _ => .error (.unknown file)

/-- Whether an argument asks for help. -/
def asksHelp (argument : String) : Bool := argument = "--help" || argument = "help"

/-- Whether an argument asks for a listing. -/
def asksListing (argument : String) : Bool := argument = "-d" || argument = "--disassemble"

/-- Read a command line on top of what was read before; `help` says that help was asked for. -/
def parseFrom (a : Arguments) (help : Bool) : List String → Except ArgumentError Request
  | [] => .ok (if help then .help else .run a)
  | argument :: rest =>
    if asksHelp argument then a.parseFrom true rest
    else if argument = "--" then do
      let a ← rest.foldlM setFile a
      return if help then .help else .run a
    else if argument.startsWith "-" then
      if help then .error .afterHelp
      else if asksListing argument then { a with disassemble := true }.parseFrom help rest
      else match Setting.ofName? argument, rest with
        | none, _ => .error (.unknown argument)
        | some _, [] => .error (.missingValue argument)
        | some s, value :: rest => do (← a.set s argument value).parseFrom help rest
    else do (← a.setFile argument).parseFrom help rest

/-- Read a command line. -/
def parse (arguments : List String) : Except ArgumentError Request := empty.parseFrom false arguments

end Arguments

end R5900
