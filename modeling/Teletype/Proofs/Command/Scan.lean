import Mathlib
import Teletype.Command.Scan
import Teletype.Proofs.Console.Steady
import Teletype.Proofs.Console.Twins

/-!
# Scans in order

A scan is the run of its reads in order, each followed by the line that echoes it. `Echoes` judges
such a run as long as it succeeds and `EchoFails` the point where it does not; both speak of reads
and lines on the console alone. `run_in_order` says what a scan makes of either end: one flush, and
the first failure if there is one.
-/

namespace Teletype.Command

open Console (Kind Indifferent read writeLine flush keeps_read keeps_writeLine keeps_flush)

/-- The reads and the lines with what they gave succeed one after another. -/
inductive Echoes : List Kind → Console → Console → Prop where
  | done {c} :
    Echoes [] c c
  | next {kind kinds c d e f v} :
    read kind c = .ok v d →
    writeLine v d = .ok () e →
    Echoes kinds e f →
    Echoes (kind :: kinds) c f

/-- A read fails, or the line with what it gave. -/
inductive EchoFails (kind : Kind) (c : Console) : Failure → Console → Prop where
  | read {failure d} :
    read kind c = .error failure d →
    EchoFails kind c failure d
  | line {v d failure e} :
    read kind c = .ok v d →
    writeLine v d = .error failure e →
    EchoFails kind c failure e

/-- One flush and nothing else, with the outcome that the script of the sink holds for it. -/
inductive FlushesOnce (c : Console) : Outcome Unit → Console → Prop where
  | done :
    c.sink.refusal? = none →
    FlushesOnce c (.ok ()) { c with sink := c.sink.flushed .flush }
  | failed {failure call} :
    c.sink.refusal? = some failure →
    call.isFlush = true →
    FlushesOnce c (.error failure) { c with sink := c.sink.flushed call }

/-- A flush is just that. -/
lemma flush_once (c : Console) :
    FlushesOnce c (Result.outcome (flush c)) (Result.state (flush c)) := by
  have fl := Sink.flush_flushes c.sink
  simp only [flush, Console.onSink]
  generalize Sink.flush c.sink = result at fl
  cases fl with
  | done quiet => exact .done quiet
  | failed turn fails due => exact .failed due fails.flush

/-- Echoes leave a steady console steady. -/
lemma Echoes.steady {kinds c d} (es : Echoes kinds c d) (steady : c.Steady) : d.Steady := by
  induction es with
  | done => exact steady
  | next got put es ih =>
    exact ih ((keeps_writeLine _).of_ok ((keeps_read _).of_ok steady got) put)

/-- Echoes leave a sink that does not fail as one. -/
lemma Echoes.unfailing {kinds c d} (es : Echoes kinds c d) (unfailing : c.sink.Unfailing) :
    d.sink.Unfailing := by
  induction es with
  | done => exact unfailing
  | next got put _ ih =>
    have reached := (Indifferent.read _).unfailing got unfailing
    exact ih ((Indifferent.writeLine _).unfailing put reached)

/-- On a steady console an echo fails with an error only. -/
lemma EchoFails.cause {kind c failure d} (ef : EchoFails kind c failure d) (steady : c.Steady) :
    d.Steady ∧ ∃ cause, failure = .error cause := by
  cases ef with
  | read got => exact (keeps_read _).of_error steady got
  | line got put => exact (keeps_writeLine _).of_error ((keeps_read _).of_ok steady got) put

/-- Reads with their lines all succeed, or there is a first one that fails. -/
lemma echoes_or_fails (kinds : List Kind) (c : Console) :
    (∃ d, Echoes kinds c d) ∨
      ∃ front kind rest d failure e, kinds = front ++ kind :: rest ∧ Echoes front c d ∧
        EchoFails kind d failure e := by
  induction kinds generalizing c with
  | nil => exact .inl ⟨c, .done⟩
  | cons kind kinds ih =>
    cases got : read kind c with
    | error failure d => exact .inr ⟨[], kind, kinds, c, failure, d, rfl, .done, .read got⟩
    | ok v d =>
      cases put : writeLine v d with
      | error failure e => exact .inr ⟨[], kind, kinds, c, failure, e, rfl, .done, .line got put⟩
      | ok _ e =>
        rcases ih e with ⟨f, es⟩ | ⟨front, kind', rest, f, failure, g, rfl, es, ef⟩
        · exact .inl ⟨f, .next got put es⟩
        · exact .inr ⟨kind :: front, kind', rest, f, failure, g, rfl, .next got put es, ef⟩

/-! ## What a scan makes of them -/

/-- An echo is the line of what was read. -/
lemma echo_of_line {kind c d v} (got : read kind c = .ok v d) : echo kind c = writeLine v d := by
  simp only [echo, bind, EStateM.bind, got]

/-- Where a read or its line fails the echo does. -/
lemma EchoFails.echo {kind c failure d} (ef : EchoFails kind c failure d) :
    echo kind c = .error failure d := by
  cases ef with
  | read got => simp only [Command.echo, bind, EStateM.bind, got]
  | line got put => rw [echo_of_line got, put]

namespace Scan

/-- The end of a scan that succeeds flushes once. -/
lemma finish_once (c : Console) :
    ∃ outcome d, FlushesOnce c outcome d ∧ finish c = ⟨outcome, [], d⟩ := by
  have once := flush_once c
  unfold finish
  generalize flush c = result at once
  cases result with
  | ok => exact ⟨_, _, once, rfl⟩
  | error => exact ⟨_, _, once, rfl⟩

/-- Whatever the flush gives, the error stands. -/
lemma giveUp_once {c : Console} (kind : Kind) (error : Error) (steady : c.Steady) :
    ∃ outcome d, FlushesOnce c outcome d ∧
      giveUp kind error c = ⟨.error (.error error), [⟨kind, some error.kind⟩], d⟩ := by
  have once := flush_once c
  have orderly := keeps_flush c steady
  unfold giveUp
  generalize flush c = result at once orderly
  cases orderly with
  | ok => exact ⟨_, _, once, rfl⟩
  | error => exact ⟨_, _, once, rfl⟩

/-- Behind reads that are echoed the scan goes on with the others. -/
lemma run_append {front : List Kind} {c d : Console} (es : Echoes front c d) (rest : List Kind) :
    run (front ++ rest) c =
      { run rest d with attempts := front.map (⟨·, none⟩) ++ (run rest d).attempts } := by
  induction es with
  | done => rfl
  | next got put es ih =>
    rw [List.cons_append, run, echo_of_line got, put]
    simp only [ih]
    rfl

/-- The flush at the end cannot fail on a sink that never does, so the scan comes to what its reads
come to. -/
lemma run_of_echoes {kinds : List Kind} {c d : Console} (es : Echoes kinds c d)
    (unfailing : c.sink.Unfailing) :
    ∃ t, run kinds c = ⟨.ok (), kinds.map (⟨·, none⟩), { d with sink := t }⟩ ∧
      t.accepted = d.sink.accepted := by
  obtain ⟨t, flushed, same, -⟩ := Console.Appends.flush d (es.unfailing unfailing)
  have finished : finish d = ⟨.ok (), [], { d with sink := t }⟩ := by
    simp only [finish, flushed]
  refine ⟨t, ?_, same.trans (List.append_nil _)⟩
  simpa [run, finished] using run_append es []

/-- A scan that is given up does not succeed. -/
lemma giveUp_ne_ok (kind : Kind) (error : Error) (c : Console) :
    (giveUp kind error c).outcome ≠ .ok () := by
  unfold giveUp
  rcases flush c with _ | ⟨_ | _, _⟩ <;> nofun

/-- A scan that succeeds has echoed all its reads. -/
lemma echoes_of_ok {kinds : List Kind} {c : Console} (ok : (run kinds c).outcome = .ok ()) :
    ∃ d, Echoes kinds c d := by
  rcases echoes_or_fails kinds c with all | ⟨front, kind, rest, d, failure, e, rfl, es, ef⟩
  · exact all
  · rw [run_append es, run, ef.echo] at ok
    cases failure with
    | error error => exact absurd ok (giveUp_ne_ok kind error e)
    | abort cause => cases ok

/-- A scan reads and echoes in order. If all succeeds it ends with one flush and its outcome; at the
first error it attempts no further read, flushes once and reports the error whatever the flush
gives. One of the two happens on every steady console. -/
theorem run_in_order (kinds : List Kind) (c : Console) (steady : c.Steady) :
    let s := run kinds c
    (∀ d, Echoes kinds c d →
        FlushesOnce d s.outcome s.console ∧ s.attempts = kinds.map (⟨·, none⟩)) ∧
      (∀ front kind rest d error e, kinds = front ++ kind :: rest → Echoes front c d →
        EchoFails kind d (.error error) e →
          s.outcome = .error (.error error) ∧
            (∃ outcome, FlushesOnce e outcome s.console) ∧
            s.attempts = front.map (⟨·, none⟩) ++ [⟨kind, some error.kind⟩]) ∧
      ((∃ d, Echoes kinds c d) ∨
        ∃ front kind rest d error e, kinds = front ++ kind :: rest ∧ Echoes front c d ∧
          EchoFails kind d (.error error) e) := by
  refine ⟨?_, ?_, ?_⟩
  · intro d es
    obtain ⟨outcome, e, once, finished⟩ := finish_once d
    have whole : run kinds c = ⟨outcome, kinds.map (⟨·, none⟩), e⟩ := by
      simpa [run, finished] using run_append es []
    rw [whole]
    exact ⟨once, rfl⟩
  · rintro front kind rest d error e rfl es ef
    obtain ⟨outcome, f, once, gaveUp⟩ :=
      giveUp_once kind error (ef.cause (es.steady steady)).1
    -- the kinds behind the one that fails are never attempted
    have stopped : run (kind :: rest) d = giveUp kind error e := by rw [run, ef.echo]
    rw [run_append es, stopped, gaveUp]
    exact ⟨rfl, ⟨outcome, once⟩, rfl⟩
  · rcases echoes_or_fails kinds c with all | ⟨front, kind, rest, d, failure, e, cut, es, ef⟩
    · exact .inl all
    · obtain ⟨-, error, rfl⟩ := ef.cause (es.steady steady)
      exact .inr ⟨front, kind, rest, d, error, e, cut, es, ef⟩

/-- The second of three numbers is none, and the closing flush fails too. -/
theorem run_in_order_closed :
    let broken : FlushAction := .fault ⟨.brokenPipe, "closed"⟩
    let digits := Event.data 0x31 [0x20, 0x74, 0x77, 0x6F, 0x20, 0x33]
    let c : Console := ⟨.ofEvents [digits], { flushes := [.done, .done, broken] }, {}⟩
    let d := Result.state (echo .int c)
    let e := Result.state (echo .int d)
    let error := Error.format "an integer" "two"
    let s := run [.int, .int, .int] c
    c.Steady ∧ Echoes [.int] c d ∧ EchoFails .int d (.error error) e ∧
      s.outcome = .error (.error error) ∧
      s.attempts = [⟨.int, none⟩, ⟨.int, some .format⟩] ∧
      s.console.sink.log =
        [.flush, .write [0x31, 0x0A], .flush, .flushFault .brokenPipe] := by
  intro broken digits c d e error s
  have steady : c.Steady :=
    ⟨by simp [c, digits, Source.Steady, Source.ofEvents], by simp [c], by simp [c, broken]⟩
  have got : read .int c = .ok (.int 1) (Result.state (read .int c)) := by
    subst c
    cbv
  have put : writeLine (.int 1) (Result.state (read .int c)) = .ok () d := by
    subst d c
    cbv
  have failed : read .int d = .error (.error error) e := by
    subst e d c
    cbv
  have first : Echoes [.int] c d := .next got put .done
  have second : EchoFails .int d (.error error) e := .read failed
  obtain ⟨reported, -, attempted⟩ :=
    (run_in_order [.int, .int, .int] c steady).2.1 [.int] .int [.int] d error e rfl first second
  refine ⟨steady, first, second, reported, attempted, ?_⟩
  subst s c
  cbv

end Scan

end Teletype.Command
