import Teletype.Console.Basic

/-!
# Notices

What the command says on its diagnostic stream, one notice a line or two.
-/

namespace Teletype

namespace Console.Kind

/-- All kinds of reads, in the order in which they are listed to the user. -/
def all : List Kind :=
  [.int, .float, .bool, .string, .char, .line]

/-- The word for a kind of read. -/
def name : Kind → String
  | int => "int"
  | float => "float"
  | bool => "bool"
  | string => "string"
  | char => "char"
  | line => "line"

/-- The kind of read that a word names. -/
def ofName? (s : String) : Option Kind :=
  all.find? fun k => k.name == s

end Console.Kind

namespace Command

/-- The programs of the showcase. -/
inductive Program
  | string
  | fraction
  deriving DecidableEq, Repr

namespace Program

/-- The programs in the order in which they are listed. -/
def all : List Program :=
  [.string, .fraction]

/-- The word for a program. -/
def name : Program → String
  | string => "string"
  | fraction => "fraction"

/-- The program that a word names. -/
def ofName? (s : String) : Option Program :=
  all.find? fun p => p.name == s

end Program

/-- What is told on the error stream. -/
inductive Notice
  | usage
  | unknownOption (option : String)
  | unknownCommand (command : String)
  | missingProgram
  | unexpectedArgument (argument : String)
  | unknownProgram (name : String)
  | missingKind
  | unknownKind (name : String)
  | failed (error : Error)
  | aborted (cause : Abort)
  /-- read number `index` of a scan and how it went -/
  | attempted (index : Nat) (kind : Console.Kind) (failure : Option ErrorKind)
  | finished (program : Program)

namespace Notice

/-- The text that shows how the commands are used. -/
def usageText : String :=
  "Usage: cx <demo|scan> [--verbose] <args>\n" ++
  "  cx demo <string|fraction>\n" ++
  "  cx scan <int|float|bool|string|char|line>..."

/-- The programs to choose from. -/
def programList : String :=
  ", ".intercalate (Program.all.map Program.name)

/-- The kinds of read to choose from. -/
def kindList : String :=
  ", ".intercalate (Console.Kind.all.map Console.Kind.name)

/-- The wording of a notice, without the end of its last line. `elapsed` is the time that a program
took, in milliseconds. -/
def text (elapsed : String) : Notice → String
  | usage => usageText
  | unknownOption option => "Unknown option: " ++ option
  | unknownCommand command => "Unknown command: " ++ command ++ "\n" ++ usageText
  | missingProgram => "Missing <program>; one of: " ++ programList
  | unexpectedArgument argument => "Unexpected argument: " ++ argument
  | unknownProgram name => "Unknown program: " ++ name ++ "; one of: " ++ programList
  | missingKind => "Missing <kind>; one of: " ++ kindList
  | unknownKind name => "Unknown read kind: " ++ name
  | failed error => "error: " ++ error.message
  | aborted cause => "aborted: " ++ cause.message
  | attempted index kind failure =>
    "[scan] #" ++ toString index ++ " " ++ kind.name ++ ": " ++
      (failure.map ErrorKind.name).getD "ok"
  | finished program => "[demo] " ++ program.name ++ " finished in " ++ elapsed ++ "ms"

/-- The notices on lines of their own. -/
def render (elapsed : String) (notices : List Notice) : String :=
  String.join (notices.map fun n => n.text elapsed ++ "\n")

end Notice

end Command

end Teletype
