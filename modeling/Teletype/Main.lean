import Teletype.Command.Run

/-!
# The command line

Binds the command to the process: arguments, environment, standard streams and clock.
-/

namespace Teletype.Streams

/-- All bytes of a stream, after those read before. -/
partial def readAll (stream : IO.FS.Stream) (before : ByteArray) : IO ByteArray := do
  let piece ← stream.read 65536
  if piece.isEmpty then return before
  readAll stream (before ++ piece)

/-- Nanoseconds as milliseconds with three places. -/
def milliseconds (nanos : Nat) : String :=
  let micros := (nanos + 500) / 1000
  let places := toString (micros % 1000)
  toString (micros / 1000) ++ "." ++ "".pushn '0' (3 - places.length) ++ places

/-- The events of standard input, for an order that reads it. -/
def standardInput (argv : List String) : IO (List Event) := do
  match Command.Order.parse argv with
  | .ok { job := .scan _, .. } =>
    let bytes ← readAll (← IO.getStdin) ByteArray.empty
    return Event.ofBytes bytes.toList
  | _ => return []

end Teletype.Streams

open Teletype in
/-- Runs the command on the process's own streams. -/
def main (argv : List String) : IO UInt32 := do
  let autoflush ← IO.getEnv "CX_CONSOLE_AUTOFLUSH"
  let started ← IO.monoNanosNow
  let source := Source.ofEvents (← Streams.standardInput argv)
  let completion := Command.run argv (autoflush.map (·.toUTF8.toList)) source {}
  let out ← IO.getStdout
  out.write (ByteArray.mk completion.console.sink.accepted.toArray)
  out.flush
  let stopped ← IO.monoNanosNow
  (← IO.getStderr).putStr
    (Command.Notice.render (Streams.milliseconds (stopped - started)) completion.notices)
  return UInt32.ofNat completion.code
