import Teletype.Command.Notice

/-!
# Arguments

The command line as a command, a switch for verbose mode, and the remaining words in order. Options
may stand anywhere after the command, which is taken as it is.
-/

namespace Teletype.Command

/-- A command line, taken apart. -/
structure Arguments where
  command : String
  verbose : Bool
  positional : List String
  deriving DecidableEq, Repr

namespace Arguments

/-- The one option that is known. -/
def verboseOption : String := "--verbose"

/-- Words that start with two dashes are options. -/
def isOption (word : String) : Bool :=
  ['-', '-'].isPrefixOf word.toList

/-- Whether the words after the command ask for verbose mode, and those that are no options. An
unknown option is refused, the first one first. -/
def sort : List String → Except Notice (Bool × List String)
  | [] => .ok (false, [])
  | word :: rest =>
    if word = verboseOption then do
      let (_, positional) ← sort rest
      return (true, positional)
    else if isOption word then .error (.unknownOption word)
    else do
      let (verbose, positional) ← sort rest
      return (verbose, word :: positional)

/-- Takes a command line apart; the first word is the command, whatever it looks like. -/
def parse : List String → Except Notice Arguments
  | [] => .error .usage
  | command :: rest => do
    let (verbose, positional) ← sort rest
    return { command, verbose, positional }

end Arguments

/-- The setting of a switch in the environment: `1` or `true`, `0` or `false`. Anything else, bytes
that are not text among it, leaves the switch alone. -/
def switch? (value : Option (List UInt8)) : Option Bool :=
  match value.bind Utf8.decode? with
  | some ['0'] => some false
  | some ['1'] => some true
  | some word =>
    if word = Boolean.write false then some false
    else if word = Boolean.write true then some true
    else none
  | none => none

end Teletype.Command
