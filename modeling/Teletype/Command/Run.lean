import Teletype.Command.Arguments
import Teletype.Command.Scan
import Teletype.Command.Showcase

/-!
# Running the command

Words become a job or a notice that says why not, before any stream is touched; a job runs on a
console and ends with an exit code.
-/

namespace Teletype.Command

/-- What a command line asks for. -/
inductive Job
  | demo (program : Program)
  | scan (kinds : List Console.Kind)
  deriving DecidableEq, Repr

/-- A job, and whether it is to be traced. -/
structure Order where
  job : Job
  verbose : Bool
  deriving DecidableEq, Repr

/-- The program to show is the one operand. -/
def Job.demo? : List String → Except Notice Job
  | [] => .error .missingProgram
  | [name] =>
    match Program.ofName? name with
    | some program => .ok (.demo program)
    | none => .error (.unknownProgram name)
  | _ :: argument :: _ => .error (.unexpectedArgument argument)

/-- The kinds of the given names, or the first name that is none. -/
def kinds : List String → Except Notice (List Console.Kind)
  | [] => .ok []
  | name :: rest =>
    match Console.Kind.ofName? name with
    | none => .error (.unknownKind name)
    | some kind => do
      let more ← kinds rest
      return kind :: more

/-- The kinds to read are the operands, one at least. -/
def Job.scan? : List String → Except Notice Job
  | [] => .error .missingKind
  | names => do
    let wanted ← kinds names
    return .scan wanted

/-- The command decides what the operands are. -/
def Job.ofArguments (a : Arguments) : Except Notice Job :=
  if a.command = "demo" then Job.demo? a.positional
  else if a.command = "scan" then Job.scan? a.positional
  else .error (.unknownCommand a.command)

/-- The order that a command line gives, or the notice that refuses it. -/
def Order.parse (argv : List String) : Except Notice Order := do
  let arguments ← Arguments.parse argv
  let job ← Job.ofArguments arguments
  return ⟨job, arguments.verbose⟩

/-- The end of the command: its exit code, the console as it leaves it, and its notices. -/
structure Completion where
  code : Nat
  console : Console
  notices : List Notice

/-- The exit code of a run. -/
def exitCode : Outcome Unit → Nat
  | .ok () => 0
  | .error (.error _) => 1
  | .error (.abort _) => 101

/-- What is told of a run that failed. -/
def complaint : Outcome Unit → List Notice
  | .ok () => []
  | .error (.error error) => [.failed error]
  | .error (.abort cause) => [.aborted cause]

/-- The trace of a scan, one notice for each read. -/
def trace (attempts : List Attempt) : List Notice :=
  attempts.zipIdx.map fun (attempt, index) => .attempted index attempt.kind attempt.failure

/-- Runs a program; in verbose mode the end of a run that succeeds is told. -/
def runDemo (program : Program) (verbose : Bool) (c : Console) : Completion :=
  let (outcome, d) : Outcome Unit × Console :=
    match program.run c with
    | .ok () d => (.ok (), d)
    | .error failure d => (.error failure, d)
  let finished := if verbose ∧ exitCode outcome = 0 then [.finished program] else []
  ⟨exitCode outcome, d, finished ++ complaint outcome⟩

/-- Runs a scan; in verbose mode its attempts are told in order. -/
def runScan (kinds : List Console.Kind) (verbose : Bool) (c : Console) : Completion :=
  let s := Scan.run kinds c
  let traced := if verbose then trace s.attempts else []
  ⟨exitCode s.outcome, s.console, traced ++ complaint s.outcome⟩

/-- Runs the job that is ordered. -/
def Order.run (order : Order) (c : Console) : Completion :=
  match order.job with
  | .demo program => runDemo program order.verbose c
  | .scan kinds => runScan kinds order.verbose c

/-- The console as the environment sets it up; what it does not say stays as by default. -/
def configuration (autoflush : Option (List UInt8)) : Config :=
  { autoflush := (switch? autoflush).getD false }

/-- The whole command: arguments, the value of the autoflush switch in the environment, and the
console to work on. -/
def run (argv : List String) (autoflush : Option (List UInt8)) (source : Source) (sink : Sink) :
    Completion :=
  let console : Console := { source, sink, config := configuration autoflush }
  match Order.parse argv with
  | .error notice => ⟨2, console, [notice]⟩
  | .ok order => order.run console

end Teletype.Command
