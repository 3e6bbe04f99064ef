import Teletype.Checked
import Teletype.Quoted
import Teletype.Utf8.Basic

/-!
# Failures

What an operation may answer instead of a value: an error, which the caller is meant to handle, or
an abort, which ends the program unless somebody catches it. `Error.message` gives the wording.
-/

namespace Teletype

/-- Why a stream refused a call. -/
inductive FaultKind
  | interrupted
  | brokenPipe
  | wouldBlock
  | unexpectedEof
  | writeZero
  | other
  deriving DecidableEq, Repr

/-- A refused call on a stream, with the stream's own words for it. -/
structure Fault where
  kind : FaultKind
  message : String
  deriving DecidableEq, Repr

/-- The call did nothing and may be repeated at once. -/
def Fault.isInterrupted (f : Fault) : Bool :=
  f.kind == .interrupted

/-- The fault of a sink that takes no byte. -/
def Fault.writeZero : Fault :=
  ⟨.writeZero, "failed to write whole buffer"⟩

namespace Expected

-- what reading a value expects, as its error words it
/-- What a read of an integer asks for. -/
def integer : String := "an integer"

/-- What a read of a floating-point number asks for. -/
def float : String := "a floating-point number"

/-- What a read of a truth value asks for. -/
def boolean : String := "a boolean"

/-- What a read of text asks for. -/
def utf8 : String := "valid UTF-8"

/-- What a read of a character asks for behind its first byte. -/
def completeUtf8 : String := "a complete UTF-8 sequence"

end Expected

/-- An error of a text or console operation. -/
inductive Error
  | outOfRange (index : Int) (length : Nat)
  | negativeLength (length : Int32)
  | format (expected token : String)
  | endOfInput
  | io (fault : Fault)
  deriving DecidableEq, Repr

/-- Classes of errors, for a program to branch on. -/
inductive ErrorKind
  | outOfRange
  | format
  | endOfInput
  | ioFailure
  deriving DecidableEq, Repr

/-- The word for a kind of error. -/
def ErrorKind.name : ErrorKind → String
  | outOfRange => "OutOfRange"
  | format => "Format"
  | endOfInput => "EndOfInput"
  | ioFailure => "IoFailure"

namespace Error

/-- The kind that an error is of; lengths below zero are out of range as well. -/
def kind : Error → ErrorKind
  | outOfRange .. => .outOfRange
  | negativeLength _ => .outOfRange
  | format .. => .format
  | endOfInput => .endOfInput
  | io _ => .ioFailure

/-- Malformed bytes where something else was expected; the token keeps what text is in them. -/
def malformed (expected : String) (bytes : List UInt8) : Error :=
  .format expected (String.ofList (Utf8.decodeReplacing bytes))

/-- The wording of an error. -/
def message : Error → String
  | outOfRange index length =>
    "Index out of range: index " ++ toString index ++ ", length " ++ toString length
  | negativeLength length => "Negative length: " ++ toString length.toInt
  | format expected token =>
    "Expected " ++ expected ++ ", found " ++ String.ofList (Quoted.write token.toList)
  | endOfInput => "End of input"
  | io fault => "I/O failure: " ++ fault.message

end Error

/-- The end of a computation that nobody is meant to handle. -/
inductive Abort
  | stream (message : String)
  | overflow (operation : Checked.Operation)
  /-- a byte offset that no character starts at -/
  | misplaced (offset : Nat)
  deriving DecidableEq, Repr

/-- The wording of an abort. -/
def Abort.message : Abort → String
  | stream message => message
  | overflow operation => "attempt to " ++ operation.name ++ " with overflow"
  | misplaced offset => "no character starts at byte " ++ toString offset

/-- What ends a computation: an error, which the caller may handle, or an abort. -/
inductive Failure
  | error (cause : Error)
  | abort (cause : Abort)
  deriving DecidableEq, Repr

/-- The failure is that of a stream: a refused call or an abort in the middle of one. -/
def Failure.isStream : Failure → Bool
  | error (.io _) => true
  | abort (.stream _) => true
  | _ => false

/-- A result, or the failure in its place. -/
abbrev Outcome := Except Failure

end Teletype
