import Teletype.Failure

/-!
# Sinks

A stream that takes bytes. A call of `write` may take all bytes, some of them or none, refuse or
abort; what each call does is laid down in a script, and a call beyond the script succeeds. The log
keeps all calls in order. `Sink.write` brings a whole run of bytes out over as many calls as it
takes.
-/

namespace Teletype

/-- What a call of `write` does. -/
inductive WriteAction
  | all
  | atMost (n : Nat)
  | fault (fault : Fault)
  | abort (message : String)
  deriving DecidableEq, Repr

/-- What a call of `flush` does. -/
inductive FlushAction
  | done
  | fault (fault : Fault)
  | abort (message : String)
  deriving DecidableEq, Repr

/-- A call that a sink got, and how it ended. -/
inductive Call
  | write (bytes : List UInt8)
  | writeFault (kind : FaultKind)
  | writeAbort
  | flush
  | flushFault (kind : FaultKind)
  | flushAbort
  deriving DecidableEq, Repr

/-- The bytes that a call takes. -/
def Call.bytes : Call → List UInt8
  | write bytes => bytes
  | _ => []

/-- A sink with the script of its coming calls and the log of the past ones. -/
structure Sink where
  writes : List WriteAction := []
  flushes : List FlushAction := []
  log : List Call := []
  deriving DecidableEq, Repr

/-- A computation on a sink. -/
abbrev Writer := EStateM Failure Sink

/-- How bringing out a run of bytes went: the outcome, the calls made, and the rest of the
script. -/
structure Delivery where
  outcome : Outcome Unit
  calls : List Call
  rest : List WriteAction

namespace Delivery

/-- The delivery with one more call in front. -/
def after (call : Call) (d : Delivery) : Delivery :=
  { d with calls := call :: d.calls }

/-- Calls the sink until it has taken all bytes. An interrupted call is repeated; a call that takes
no byte fails; no bytes make no call. -/
def run (script : List WriteAction) (bytes : List UInt8) : Delivery :=
  if bytes = [] then ⟨.ok (), [], script⟩
  else
    match script with
    | [] => ⟨.ok (), [.write bytes], []⟩
    | .all :: rest => ⟨.ok (), [.write bytes], rest⟩
    | .atMost n :: rest =>
      if n = 0 then ⟨.error (.error (.io .writeZero)), [.write []], rest⟩
      else after (.write (bytes.take n)) (run rest (bytes.drop n))
    | .fault f :: rest =>
      if f.isInterrupted then after (.writeFault f.kind) (run rest bytes)
      else ⟨.error (.error (.io f)), [.writeFault f.kind], rest⟩
    | .abort message :: rest => ⟨.error (.abort (.stream message)), [.writeAbort], rest⟩

end Delivery

namespace Sink

/-- The sink with some more calls in its log. -/
def record (s : Sink) (calls : List Call) : Sink :=
  { s with log := s.log ++ calls }

/-- All bytes that the sink has taken. -/
def accepted (s : Sink) : List UInt8 :=
  s.log.flatMap Call.bytes

/-- Brings out a run of bytes. -/
def write (bytes : List UInt8) : Writer Unit := fun s =>
  let d := Delivery.run s.writes bytes
  let t := { s with writes := d.rest }.record d.calls
  match d.outcome with
  | .ok () => .ok () t
  | .error e => .error e t

/-- Flushes, as the script has it. -/
def flush : Writer Unit := fun s =>
  match s.flushes with
  | [] => .ok () (s.record [.flush])
  | .done :: rest => .ok () ({ s with flushes := rest }.record [.flush])
  | .fault f :: rest =>
    .error (.error (.io f)) ({ s with flushes := rest }.record [.flushFault f.kind])
  | .abort message :: rest =>
    .error (.abort (.stream message)) ({ s with flushes := rest }.record [.flushAbort])

end Sink

end Teletype
