import Mathlib
import Teletype.Proofs.Console.Inversion
import Teletype.Proofs.Input.Accounting

/-!
# Steady consoles

On a steady console no stream has an abort to come. Whatever is computed there ends with a value or
an error and leaves the console steady: `Keeps` says this of a computation and is closed under
composition. Down at the streams `Source.Steady` and `Sink.Steady` are read off the judgments there.
-/

namespace Teletype

/-- A result without abort, in a state that has `inv`. -/
inductive Orderly {σ α : Type} (inv : σ → Prop) : EStateM.Result Failure σ α → Prop where
  | ok {a s} :
    inv s →
    Orderly inv (.ok a s)
  | error {cause s} :
    inv s →
    Orderly inv (.error (.error cause) s)

/-- From a state that has `inv` the computation does not abort, and it leaves a state that has
`inv`. -/
def Keeps {σ α : Type} (inv : σ → Prop) (x : EStateM Failure σ α) : Prop :=
  ∀ s, inv s → Orderly inv (x s)

namespace Keeps

variable {σ α β : Type} {inv : σ → Prop}

/-- A value keeps the invariant. -/
lemma pure (a : α) : Keeps inv (Pure.pure a) :=
  fun _ holds => .ok holds

/-- An error is no abort and keeps the invariant. -/
lemma throw (cause : Error) :
    Keeps inv (MonadExcept.throw (.error cause) : EStateM Failure σ α) :=
  fun _ holds => .error holds

/-- Looking at the state keeps the invariant. -/
lemma get : Keeps inv (MonadState.get : EStateM Failure σ σ) :=
  fun _ holds => .ok holds

/-- Steps that keep the invariant keep it one after the other. -/
lemma bind {x : EStateM Failure σ α} {f : α → EStateM Failure σ β} (first : Keeps inv x)
    (rest : ∀ a, Keeps inv (f a)) : Keeps inv (x >>= f) := by
  intro s holds
  show Orderly inv (EStateM.bind x f s)
  unfold EStateM.bind
  have result := first s holds
  generalize x s = r at result
  cases result with
  | ok holds => exact rest _ _ holds
  | error holds => exact .error holds

/-- What is made of a value keeps the invariant. -/
lemma map {x : EStateM Failure σ α} (f : α → β) (first : Keeps inv x) : Keeps inv (f <$> x) := by
  rw [map_eq_pure_bind]
  exact first.bind fun a => .pure (f a)

/-- With a value the invariant still holds. -/
lemma of_ok {x : EStateM Failure σ α} {a s t} (keeps : Keeps inv x) (holds : inv s)
    (result : x s = .ok a t) : inv t := by
  have orderly := keeps s holds
  rw [result] at orderly
  cases orderly with
  | ok holds => exact holds

/-- A failure is an error, and the invariant still holds. -/
lemma of_error {x : EStateM Failure σ α} {e s t} (keeps : Keeps inv x) (holds : inv s)
    (result : x s = .error e t) : inv t ∧ ∃ cause, e = .error cause := by
  have orderly := keeps s holds
  rw [result] at orderly
  cases orderly with
  | error holds => exact ⟨holds, _, rfl⟩

end Keeps

/-! ## Sources -/

/-- No abort is to come from the source. -/
def Source.Steady (s : Source) : Prop :=
  ∀ message, Event.abort message ∉ s.pending

/-- A steady source stays steady while its bytes are consumed. -/
lemma Source.Consumes.steady {s t : Source} {bs} (passed : s.Consumes bs t) (steady : s.Steady) :
    t.Steady :=
  fun message mem => steady message (passed.pending.subset mem)

/-- A request to a steady source fails with an error only. -/
lemma request_cause {s t : Source} {e} (steady : s.Steady) (asked : Source.request s = .error e t) :
    ∃ cause, e = .error cause := by
  obtain ⟨_ | ⟨b, bs⟩, pending, consumed⟩ := s
  case cons => cases asked
  case nil =>
    cases pending with
    | nil => cases asked
    | cons event rest =>
      cases event with
      | data | ended => cases asked
      | fault f =>
        cases asked
        exact ⟨_, rfl⟩
      | abort message => exact absurd List.mem_cons_self (steady message)

/-- On a steady source a refill fails with an error. -/
lemma ask_cause {s t : Source} {e} (steady : s.Steady) (asked : Refill.twice.ask s = .error e t) :
    ∃ cause, e = .error cause := by
  have settled := s.settle_consumes.steady steady
  have shown := Source.request_shows s.settle
  change Refill.askTwice s = .error e t at asked
  unfold Refill.askTwice at asked
  cases first : Source.request s.settle with
  | error e' u =>
    rw [first] at asked
    cases asked
    exact request_cause settled first
  | ok piece u =>
    rw [first] at asked shown
    exact request_cause (shown.1.steady settled) asked

namespace Scanner

/-- A run over a steady source fails with an error only. -/
lemma Spans.cause {p s e t} (sp : Spans .twice p s (.error e t)) (steady : s.Steady) :
    ∃ cause, e = .error cause := by
  cases sp with
  | failed passed all last => exact ask_cause (passed.steady steady) last

/-- A look at the next byte of a steady source fails with an error only. -/
lemma Peeks.cause {s e t} (pk : Peeks .twice s (.error e t)) (steady : s.Steady) :
    ∃ cause, e = .error cause := by
  cases pk with
  | failed last => exact ask_cause steady last

/-- Continuation bytes of a steady source fail with an error only. -/
lemma Continues.cause {n bytes s e t} (ct : Continues .twice n bytes s (.error e t))
    (steady : s.Steady) : ∃ cause, e = .error cause := by
  cases ct with
  | broken | ended => exact ⟨_, rfl⟩
  | failed passed all len last => exact ask_cause (passed.steady steady) last

/-- A token of a steady source fails with an error only. -/
lemma Tokens.cause {s e t} (tk : Tokens .twice s (.error e t)) (steady : s.Steady) :
    ∃ cause, e = .error cause := by
  cases tk with
  | ended => exact ⟨_, rfl⟩
  | before first => exact first.cause steady
  | inside first second => exact second.cause (first.consumes.1.steady steady)

/-- A line of a steady source fails with an error only. -/
lemma Lines.cause {s e t} (ln : Lines .twice s (.error e t)) (steady : s.Steady) :
    ∃ cause, e = .error cause := by
  cases ln with
  | ended => exact ⟨_, rfl⟩
  | before first => exact first.cause steady
  | inside first second => exact second.cause (first.consumes.steady steady)

/-- A character of a steady source fails with an error only. -/
lemma Chars.cause {s e t} (ch : Chars .twice s (.error e t)) (steady : s.Steady) :
    ∃ cause, e = .error cause := by
  cases ch with
  | undecodable | noLead | ended => exact ⟨_, rfl⟩
  | before first => exact first.cause steady
  | inside first hw second => exact second.cause (first.led.steady steady)

/-- A request that consumes what it accounts for, and fails with errors alone, keeps a source
steady. -/
lemma keeps_of_accounts {α : Type} {q} {item : α → Item} {x : Reader α}
    (accounts : ∀ s, Accounts q s item (x s))
    (cause : ∀ s e t, x s = .error e t → s.Steady → ∃ cause, e = .error cause) :
    Keeps Source.Steady x := by
  intro s steady
  obtain ⟨bs, passed, _⟩ := accounts s
  cases result : x s with
  | ok a t =>
    rw [result] at passed
    exact .ok (passed.steady steady)
  | error e t =>
    obtain ⟨c, rfl⟩ := cause s e t result steady
    rw [result] at passed
    exact .error (passed.steady steady)

/-- Reading a token keeps a source steady. -/
lemma keeps_token : Keeps Source.Steady (token .twice) :=
  keeps_of_accounts (token_accounts .twice) fun s _ _ result steady =>
    (result ▸ token_tokens .twice s).cause steady

/-- Reading a line keeps a source steady. -/
lemma keeps_line : Keeps Source.Steady (line .twice) :=
  keeps_of_accounts (line_accounts .twice) fun s _ _ result steady =>
    (result ▸ line_lines .twice s).cause steady

/-- Reading a character keeps a source steady. -/
lemma keeps_char : Keeps Source.Steady (char .twice) :=
  keeps_of_accounts (char_accounts .twice) fun s _ _ result steady =>
    (result ▸ char_chars .twice s).cause steady

end Scanner

/-! ## Sinks -/

/-- No abort is to come from the sink. -/
structure Sink.Steady (s : Sink) : Prop where
  writes : ∀ message, WriteAction.abort message ∉ s.writes
  flushes : ∀ message, FlushAction.abort message ∉ s.flushes

/-- A write keeps a sink steady. -/
lemma Sink.keeps_write (bytes : List UInt8) : Keeps Sink.Steady (Sink.write bytes) := by
  intro s steady
  have wr := Sink.write_writes bytes s
  generalize Sink.write bytes s = result at wr
  cases wr with
  | whole tk rest =>
    exact .ok ⟨fun message mem => steady.writes message (rest.subset mem), steady.flushes⟩
  | cut tk some turn fails rest =>
    have later := fun message mem => steady.writes message (rest.subset mem)
    cases fails with
    | zero | fault => exact .error ⟨later, steady.flushes⟩
    | abort => exact absurd (List.mem_of_getElem? turn) (steady.writes _)

/-- A flush keeps a sink steady. -/
lemma Sink.keeps_flush : Keeps Sink.Steady Sink.flush := by
  intro s steady
  have fl := Sink.flush_flushes s
  generalize Sink.flush s = result at fl
  have later : ∀ call, (s.flushed call).Steady := fun call =>
    ⟨steady.writes, fun message mem => steady.flushes message (List.mem_of_mem_tail mem)⟩
  cases fl with
  | done => exact .ok (later _)
  | failed turn fails =>
    cases fails with
    | fault => exact .error (later _)
    | abort => exact absurd (List.mem_of_mem_head? turn) (steady.flushes _)

/-! ## Consoles -/

namespace Console

/-- No abort is to come from either side. -/
structure Steady (c : Console) : Prop where
  source : c.source.Steady
  sink : c.sink.Steady

/-- What keeps the source steady keeps the console steady. -/
lemma keeps_onSource {α : Type} {r : Reader α} (keeps : Keeps Source.Steady r) :
    Keeps Steady (onSource r) := by
  intro c steady
  have result := keeps c.source steady.source
  unfold onSource
  generalize r c.source = found at result
  cases result with
  | ok source => exact .ok ⟨source, steady.sink⟩
  | error source => exact .error ⟨source, steady.sink⟩

/-- What keeps the sink steady keeps the console steady. -/
lemma keeps_onSink {α : Type} {w : Writer α} (keeps : Keeps Sink.Steady w) :
    Keeps Steady (onSink w) := by
  intro c steady
  have result := keeps c.sink steady.sink
  unfold onSink
  generalize w c.sink = found at result
  cases result with
  | ok sink => exact .ok ⟨steady.source, sink⟩
  | error sink => exact .error ⟨steady.source, sink⟩

/-- A flush keeps a console steady. -/
lemma keeps_flush : Keeps Steady flush :=
  keeps_onSink Sink.keeps_flush

/-- So does a flush that depends on the configuration. -/
lemma keeps_flushIf (p : Bool) : Keeps Steady (if p then flush else pure ()) := by
  cases p with
  | false => exact .pure ()
  | true => exact keeps_flush

/-- Bringing out a buffer keeps a console steady. -/
lemma keeps_emit (bytes : List UInt8) : Keeps Steady (emit bytes) :=
  (keeps_onSink (Sink.keeps_write bytes)).bind fun _ =>
    Keeps.get.bind fun c => keeps_flushIf c.config.autoflush

/-- Writing a line keeps a console steady. -/
lemma keeps_writeLine (v : Value) : Keeps Steady (writeLine v) :=
  Keeps.get.bind fun _ => keeps_emit _

/-- Reading a token as a value keeps a source steady. -/
lemma keeps_tokenReader (expected : String) (value? : List Char → Option Value) :
    Keeps Source.Steady (tokenReader expected value?) := by
  refine Scanner.keeps_token.bind fun token => ?_
  cases (Utf8.decode? token).bind value? with
  | some v => exact .pure v
  | none => exact .throw _

/-- Reading a line as a text keeps a source steady. -/
lemma keeps_lineReader : Keeps Source.Steady lineReader := by
  refine Scanner.keeps_line.bind fun line => ?_
  cases Utf8.decode? line with
  | some cs => exact .pure _
  | none => exact .throw _

/-- Reading a value of any kind keeps a source steady. -/
lemma keeps_reader (kind : Kind) : Keeps Source.Steady kind.reader := by
  cases kind with
  | int | float | bool | string => exact keeps_tokenReader _ _
  | char => exact Scanner.keeps_char.map _
  | line => exact keeps_lineReader

/-- A read of any kind keeps a console steady. -/
lemma keeps_read (kind : Kind) : Keeps Steady (read kind) := by
  rw [read_eq]
  refine Keeps.bind ?_ fun _ => keeps_onSource (keeps_reader kind)
  exact Keeps.get.bind fun c => keeps_flushIf c.config.flushBeforeRead

end Console

end Teletype
