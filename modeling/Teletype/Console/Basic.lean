import Teletype.Console.Value
import Teletype.Input.Scanner
import Teletype.Output

/-!
# Consoles

A source and a sink under one configuration. Reads flush the sink first when configured to, so that
a prompt is visible; a write goes out as one run of bytes. A failed operation leaves the console
usable.
-/

namespace Teletype

/-- How lines end. -/
inductive LineEnding
  | lf
  | crlf
  deriving DecidableEq, Repr

/-- The bytes that end a line. -/
def LineEnding.bytes : LineEnding → List UInt8
  | lf => [0x0A]
  | crlf => [0x0D, 0x0A]

/-- When the sink is flushed, and how lines end. -/
structure Config where
  /-- flush before each read -/
  flushBeforeRead : Bool := true
  /-- flush after each write -/
  autoflush : Bool := false
  lineEnding : LineEnding := .lf
  deriving DecidableEq, Repr

/-- A source and a sink under one configuration. -/
structure Console where
  source : Source := {}
  sink : Sink := {}
  config : Config := {}

namespace Console

/-- A computation on a console. It leaves the console as far as it came, also when it fails. -/
abbrev Action := EStateM Failure Console

/-- Reads from the source and leaves all else as it is. -/
def onSource {α : Type} (r : Reader α) : Action α := fun c =>
  match r c.source with
  | .ok a s => .ok a { c with source := s }
  | .error e s => .error e { c with source := s }

/-- Writes to the sink and leaves all else as it is. -/
def onSink {α : Type} (w : Writer α) : Action α := fun c =>
  match w c.sink with
  | .ok a s => .ok a { c with sink := s }
  | .error e s => .error e { c with sink := s }

/-- The computation with the given outcome, which does nothing else. -/
def ofOutcome {α : Type} : Outcome α → Action α
  | .ok a => pure a
  | .error e => throw e

/-- Flushes the sink. -/
def flush : Action Unit :=
  onSink Sink.flush

/-- Brings out bytes in one piece, and flushes if every write does. -/
def emit (bytes : List UInt8) : Action Unit := do
  onSink (Sink.write bytes)
  if (← get).config.autoflush then flush

/-- Writes a value. -/
def write (v : Value) : Action Unit :=
  emit (v.appendTo [])

/-- Writes a value and ends the line. -/
def writeLine (v : Value) : Action Unit := do
  emit (v.appendTo [] ++ (← get).config.lineEnding.bytes)

/-- What happens before each read. -/
def beforeRead : Action Unit := do
  if (← get).config.flushBeforeRead then flush

/-- Reads a token that `parse` understands. The token is consumed even if it does not. -/
def readToken {α : Type} (expected : String) (parse : List Char → Option α) : Action α := do
  beforeRead
  let token ← onSource (Scanner.token .twice)
  match (Utf8.decode? token).bind parse with
  | some a => return a
  | none => throw (.error (.malformed expected token))

/-- Reads an integer of 32 bits. -/
def readInt : Action Int32 :=
  readToken Expected.integer Integer.read?

/-- Reads a floating-point number. -/
def readFloat : Action Binary32 :=
  readToken Expected.float Binary32.read?

/-- Reads a truth value. -/
def readBool : Action Bool :=
  readToken Expected.boolean Boolean.read?

/-- Reads a token as text. -/
def readString : Action Text :=
  readToken Expected.utf8 fun cs => some (Text.ofString (String.ofList cs))

/-- Reads one character, blank or not. -/
def readChar : Action Char := do
  beforeRead
  onSource (Scanner.char .twice)

/-- Reads the rest of the line, without its end. -/
def readLine : Action Text := do
  beforeRead
  let line ← onSource (Scanner.line .twice)
  match Utf8.decode? line with
  | some cs => return Text.ofString (String.ofList cs)
  | none => throw (.error (.malformed Expected.utf8 line))

/-- What can be asked of a console. -/
inductive Kind
  | int
  | float
  | bool
  | string
  | char
  | line
  deriving DecidableEq, Repr

/-- Reads a value of the given kind. -/
def read : Kind → Action Value
  | .int => Value.int <$> readInt
  | .float => Value.float <$> readFloat
  | .bool => Value.bool <$> readBool
  | .string => Value.text <$> readString
  | .char => Value.char <$> readChar
  | .line => Value.text <$> readLine

/-- A call of a console. -/
inductive Operation
  | read (kind : Kind)
  | write (value : Value)
  | writeLine (value : Value)
  | flush

/-- Carries out an operation; a read gives the value read. -/
def perform : Operation → Action (Option Value)
  | .read kind => some <$> Console.read kind
  | .write value => do
    Console.write value
    return none
  | .writeLine value => do
    Console.writeLine value
    return none
  | .flush => do
    Console.flush
    return none

end Console

end Teletype
