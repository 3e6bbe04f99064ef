import Mathlib
import Teletype.Console.Basic
import Teletype.Proofs.Input.Session
import Teletype.Proofs.Output.Inversion

/-!
# Console inversion

What a console can do, as judgments on its two sides. A read is a flush, where one is called for,
and then a reader on the source alone: `Kind.reader` names it, `read_eq` takes the read apart, and
`Reads` has a rule for each side that can fail. `Emits` does the same for what is brought out.
`Carried` judges all operations by these.
-/

namespace Teletype.Console

/-! ## Readers on the source -/

/-- The kinds that read a token. -/
inductive TokenKind
  | int
  | float
  | bool
  | string
  deriving DecidableEq, Repr

namespace TokenKind

/-- The kind of value that is read. -/
def kind : TokenKind → Kind
  | int => .int
  | float => .float
  | bool => .bool
  | string => .string

/-- What the kind expects of a token, as errors name it. -/
def expected : TokenKind → String
  | int => Expected.integer
  | float => Expected.float
  | bool => Expected.boolean
  | string => Expected.utf8

/-- The value that a text denotes. -/
def value? : TokenKind → List Char → Option Value
  | int, cs => (Integer.read? cs).map .int
  | float, cs => (Binary32.read? cs).map .float
  | bool, cs => (Boolean.read? cs).map .bool
  | string, cs => some (.text (Text.ofString (String.ofList cs)))

end TokenKind

/-- Reads a token and the value that its text denotes. -/
def tokenReader (expected : String) (value? : List Char → Option Value) : Reader Value := do
  let token ← Scanner.token .twice
  match (Utf8.decode? token).bind value? with
  | some v => return v
  | none => throw (.error (.malformed expected token))

/-- Reads a token of the kind. -/
def TokenKind.reader (k : TokenKind) : Reader Value :=
  tokenReader k.expected k.value?

/-- Reads a line as a text. -/
def lineReader : Reader Value := do
  let line ← Scanner.line .twice
  match Utf8.decode? line with
  | some cs => return .text (Text.ofString (String.ofList cs))
  | none => throw (.error (.malformed Expected.utf8 line))

/-- What a read does with the source, without the flush before it. -/
def Kind.reader : Kind → Reader Value
  | .int => TokenKind.int.reader
  | .float => TokenKind.float.reader
  | .bool => TokenKind.bool.reader
  | .string => TokenKind.string.reader
  | .char => Value.char <$> Scanner.char .twice
  | .line => lineReader

section

variable {α β : Type}

/-- Readers on the source one after the other. -/
lemma onSource_bind (r : Reader α) (g : α → Reader β) :
    onSource (r >>= g) = onSource r >>= fun a => onSource (g a) := by
  funext c
  simp only [onSource, bind, EStateM.bind]
  cases r c.source <;> rfl

/-- What is made of the value that a reader gives. -/
lemma onSource_map (f : α → β) (r : Reader α) : onSource (f <$> r) = f <$> onSource r := by
  rw [map_eq_pure_bind, map_eq_pure_bind, onSource_bind]
  rfl

end

/-- A read of a token is what happens before it and then a reader on the source. -/
lemma map_readToken {α : Type} (f : α → Value) (expected : String)
    (parse : List Char → Option α) :
    f <$> readToken expected parse =
      (do beforeRead; onSource (tokenReader expected fun cs => (parse cs).map f)) := by
  simp only [readToken, tokenReader, map_bind, onSource_bind]
  congr! with _ token
  cases Utf8.decode? token with
  | none => rfl
  | some cs => cases h : parse cs <;> simp [h] <;> rfl

/-- A read is what happens before it and then a reader on the source. -/
lemma read_eq (kind : Kind) : read kind = (do beforeRead; onSource kind.reader) := by
  cases kind with
  | int => exact map_readToken _ _ _
  | float => exact map_readToken _ _ _
  | bool => exact map_readToken _ _ _
  | string => exact map_readToken _ _ _
  | char => simp only [read, readChar, map_bind, Kind.reader, onSource_map]
  | line =>
    simp only [read, readLine, map_bind, Kind.reader, lineReader, onSource_bind]
    congr! with _ line
    cases Utf8.decode? line <;> rfl

/-- The sink is one that a read goes on with: flushed without failure, if it is to be flushed. -/
inductive Ready (c : Console) : Sink → Prop where
  | bare :
    c.config.flushBeforeRead = false →
    Ready c c.sink
  | flushed {t} :
    c.config.flushBeforeRead = true →
    Sink.Flushes c.sink (.ok () t) →
    Ready c t

/-- What a read can do: it is held off by its flush, gives a value or fails on the source. -/
inductive Reads (kind : Kind) (c : Console) : EStateM.Result Failure Console Value → Prop where
  | held {e t} :
    c.config.flushBeforeRead = true →
    Sink.Flushes c.sink (.error e t) →
    Reads kind c (.error e { c with sink := t })
  | value {t v s} :
    Ready c t →
    kind.reader c.source = .ok v s →
    Reads kind c (.ok v { c with source := s, sink := t })
  | failed {t e s} :
    Ready c t →
    kind.reader c.source = .error e s →
    Reads kind c (.error e { c with source := s, sink := t })

/-- Behind what happens before it, a read is its reader. -/
lemma reads_of_ready {kind c t} (ready : Ready c t) :
    Reads kind c (onSource kind.reader { c with sink := t }) := by
  unfold onSource
  cases found : kind.reader c.source with
  | ok v s => exact .value ready found
  | error e s => exact .failed ready found

/-- Every read is one of its cases. -/
lemma read_reads (kind : Kind) (c : Console) : Reads kind c (read kind c) := by
  rw [read_eq]
  simp only [beforeRead, bind, EStateM.bind, get, getThe, MonadStateOf.get, EStateM.get]
  cases on : c.config.flushBeforeRead with
  | false => exact reads_of_ready (.bare on)
  | true =>
    have fl := Sink.flush_flushes c.sink
    simp only [if_true, flush, onSink]
    generalize Sink.flush c.sink = result at fl
    cases fl with
    | done quiet => exact reads_of_ready (.flushed on (.done quiet))
    | failed turn fails due => exact .held on (.failed turn fails due)

/-! ## Writing -/

/-- What bringing out a buffer can do: it is written, flushed behind it, cut or left unflushed. -/
inductive Emits (bytes : List UInt8) (c : Console) :
    EStateM.Result Failure Console Unit → Prop where
  | written {t} :
    c.config.autoflush = false →
    Sink.Writes bytes c.sink (.ok () t) →
    Emits bytes c (.ok () { c with sink := t })
  | flushed {t u} :
    c.config.autoflush = true →
    Sink.Writes bytes c.sink (.ok () t) →
    Sink.Flushes t (.ok () u) →
    Emits bytes c (.ok () { c with sink := u })
  | cut {e t} :
    Sink.Writes bytes c.sink (.error e t) →
    Emits bytes c (.error e { c with sink := t })
  | unflushed {t e u} :
    c.config.autoflush = true →
    Sink.Writes bytes c.sink (.ok () t) →
    Sink.Flushes t (.error e u) →
    Emits bytes c (.error e { c with sink := u })

/-- Bringing out a buffer is one of its cases. -/
lemma emit_emits (bytes : List UInt8) (c : Console) : Emits bytes c (emit bytes c) := by
  have wr := Sink.write_writes bytes c.sink
  unfold emit
  simp only [onSink, bind, EStateM.bind, get, getThe, MonadStateOf.get, EStateM.get]
  generalize Sink.write bytes c.sink = result at wr
  rcases result with ⟨⟨⟩, t⟩ | ⟨e, t⟩
  · show Emits bytes c ((if c.config.autoflush then flush else pure ()) { c with sink := t })
    cases on : c.config.autoflush with
    | false => exact .written on wr
    | true =>
      have fl := Sink.flush_flushes t
      simp only [if_true, flush, onSink]
      generalize Sink.flush t = result at fl
      rcases result with ⟨⟨⟩, u⟩ | ⟨e, u⟩
      · exact .flushed on wr fl
      · exact .unflushed on wr fl
  · exact .cut wr

/-! ## Operations -/

/-- The bytes that an operation is to bring out, if it is a write. -/
def Operation.buffer? (config : Config) : Operation → Option (List UInt8)
  | .write v => some v.render
  | .writeLine v => some (v.render ++ config.lineEnding.bytes)
  | .read _ | .flush => none

/-- What an operation can do: a read, a buffer brought out or a flush. -/
inductive Carried (c : Console) : Operation → Outcome (Option Value) → Console → Prop where
  | read {kind result} :
    Reads kind c result →
    Carried c (.read kind) ((Result.outcome result).map some) (Result.state result)
  | emit {op bytes result} :
    op.buffer? c.config = some bytes →
    Emits bytes c result →
    Carried c op ((Result.outcome result).map fun _ => none) (Result.state result)
  | flush {result} :
    Sink.Flushes c.sink result →
    Carried c .flush ((Result.outcome result).map fun _ => none)
      { c with sink := Result.state result }

/-- An operation goes as the bringing out that it stands for. -/
lemma carried_emit {c op bytes} (buffer : op.buffer? c.config = some bytes)
    (same : perform op c = ((fun _ => none) <$> emit bytes) c) :
    Carried c op (Result.outcome (perform op c)) (Result.state (perform op c)) := by
  rw [same, Result.outcome_map, Result.state_map]
  exact .emit buffer (emit_emits bytes c)

/-- Every operation is one of its cases. -/
lemma perform_carried (op : Operation) (c : Console) :
    Carried c op (Result.outcome (perform op c)) (Result.state (perform op c)) := by
  cases op with
  | read kind =>
    simp only [perform, Result.outcome_map, Result.state_map]
    exact .read (read_reads kind c)
  | write v => exact carried_emit rfl (by rw [map_eq_pure_bind]; rfl)
  | writeLine v => exact carried_emit rfl (by rw [map_eq_pure_bind]; rfl)
  | flush =>
    have fl := Sink.flush_flushes c.sink
    simp only [perform, ← map_eq_pure_bind, Result.outcome_map, Result.state_map, flush, onSink]
    generalize Sink.flush c.sink = result at fl
    cases result with
    | ok => exact .flush fl
    | error => exact .flush fl

end Teletype.Console
