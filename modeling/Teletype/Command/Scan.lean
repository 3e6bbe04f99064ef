import Teletype.Console.Basic

/-!
# Scans

A list of reads, each echoed on a line of its own. The first failure ends the scan and is what it
reports; the earlier echoes still go out.
-/

namespace Teletype.Command

/-- Reads a value and writes it on a line of its own. -/
def echo (kind : Console.Kind) : Console.Action Unit := do
  let value ← Console.read kind
  Console.writeLine value

/-- A read that was tried, and the kind of error if it failed. -/
structure Attempt where
  kind : Console.Kind
  failure : Option ErrorKind
  deriving DecidableEq, Repr

/-- How a scan went: its outcome, its reads in order, and the console it leaves. -/
structure Scan where
  outcome : Outcome Unit
  attempts : List Attempt
  console : Console

namespace Scan

/-- The end of a scan without failures: a flush. -/
def finish (c : Console) : Scan :=
  match Console.flush c with
  | .ok () d => ⟨.ok (), [], d⟩
  | .error failure d => ⟨.error failure, [], d⟩

/-- The end of a scan at an error: one flush, whose own error does not count. -/
def giveUp (kind : Console.Kind) (error : Error) (c : Console) : Scan :=
  let attempts := [⟨kind, some error.kind⟩]
  match Console.flush c with
  | .error (.abort cause) d => ⟨.error (.abort cause), attempts, d⟩
  | .ok () d | .error (.error _) d => ⟨.error (.error error), attempts, d⟩

/-- Echoes values in order up to the first failure, and then flushes. -/
def run : List Console.Kind → Console → Scan
  | [], c => finish c
  | kind :: rest, c =>
    match echo kind c with
    | .ok () d =>
      let s := run rest d
      { s with attempts := ⟨kind, none⟩ :: s.attempts }
    | .error (.error error) d => giveUp kind error d
    | .error (.abort cause) d => ⟨.error (.abort cause), [], d⟩

end Scan

end Teletype.Command
