import Mathlib
import Teletype.Proofs.Console.Trailing

/-!
# Flushes out of sight

As long as the sink does not fail, no computation can tell when it is flushed. Twin consoles have
the same input ahead and the same output behind them, and may differ in their flushing policy;
`Indifferent` says of a computation that it goes alike on twins, and is closed under composition.
-/

namespace Teletype.Console

variable {α β : Type}

/-- The consoles may differ in their flushing policy, and in the calls that brought the same bytes
to their sinks. -/
structure Twin (c d : Console) : Prop where
  source : d.source = c.source
  lineEnding : d.config.lineEnding = c.config.lineEnding
  accepted : d.sink.accepted = c.sink.accepted
  left : c.sink.Unfailing
  right : d.sink.Unfailing

/-- A console whose sink does not fail is a twin of itself. -/
lemma Twin.refl {c : Console} (unfailing : c.sink.Unfailing) : Twin c c :=
  ⟨rfl, rfl, rfl, unfailing, unfailing⟩

/-- Two results go alike. -/
inductive Agree :
    EStateM.Result Failure Console α → EStateM.Result Failure Console α → Prop where
  | ok {a c d} :
    Twin c d →
    Agree (.ok a c) (.ok a d)
  | error {e c d} :
    Twin c d →
    Agree (.error e c) (.error e d)

/-- Results that go alike have the same outcome. -/
lemma Agree.outcome {result result' : EStateM.Result Failure Console α}
    (agree : Agree result result') : Result.outcome result' = Result.outcome result := by
  cases agree <;> rfl

/-- Results that go alike leave twins. -/
lemma Agree.twin {result result' : EStateM.Result Failure Console α}
    (agree : Agree result result') : Twin (Result.state result) (Result.state result') := by
  cases agree with
  | ok twin | error twin => exact twin

/-- The computation goes alike on twins. -/
def Indifferent (x : Action α) : Prop :=
  ∀ c d, Twin c d → Agree (x c) (x d)

/-- On a sink that does not fail the computation brings out the bytes, and nothing else changes. -/
def Appends (bytes : List UInt8) (x : Action Unit) : Prop :=
  ∀ c : Console, c.sink.Unfailing → ∃ t, x c = .ok () { c with sink := t } ∧
    t.accepted = c.sink.accepted ++ bytes ∧ t.Unfailing

namespace Appends

/-- Doing nothing brings out nothing. -/
lemma pure : Appends [] (Pure.pure ()) := fun c unfailing =>
  ⟨c.sink, rfl, (List.append_nil _).symm, unfailing⟩

/-- A flush brings out nothing. -/
lemma flush : Appends [] flush := by
  intro c unfailing
  obtain ⟨t, flushed, accepted, unfailing⟩ := unfailing.flush
  refine ⟨t, ?_, accepted.trans (List.append_nil _).symm, unfailing⟩
  simp only [Console.flush, onSink, flushed]

/-- A flush that depends on the configuration brings out nothing. -/
lemma flushIf (p : Bool) : Appends [] (if p then Console.flush else Pure.pure ()) := by
  cases p with
  | false => exact pure
  | true => exact flush

/-- What happens before a read brings out nothing. -/
lemma beforeRead : Appends [] beforeRead := fun c =>
  flushIf c.config.flushBeforeRead c

/-- Bringing out a buffer brings out its bytes. -/
lemma emit (bytes : List UInt8) : Appends bytes (emit bytes) := by
  intro c unfailing
  obtain ⟨t, written, accepted, unfailing⟩ := unfailing.write bytes
  -- whether a flush follows or not, it brings out nothing more
  obtain ⟨u, flushed, same, unfailing⟩ := flushIf c.config.autoflush { c with sink := t } unfailing
  refine ⟨u, ?_, ?_, unfailing⟩
  · simp only [Console.emit, onSink, bind, EStateM.bind, written]
    exact flushed
  · rw [same, List.append_nil, accepted]

end Appends

namespace Indifferent

/-- A value goes alike on twins. -/
lemma pure (a : α) : Indifferent (Pure.pure a : Action α) :=
  fun _ _ twin => .ok twin

/-- A failure goes alike on twins. -/
lemma throw (e : Failure) : Indifferent (MonadExcept.throw e : Action α) :=
  fun _ _ twin => .error twin

/-- What goes alike step by step goes alike. -/
lemma bind {x : Action α} {f : α → Action β} (first : Indifferent x)
    (rest : ∀ a, Indifferent (f a)) : Indifferent (x >>= f) := by
  intro c d twin
  show Agree (EStateM.bind x f c) (EStateM.bind x f d)
  have agree := first c d twin
  unfold EStateM.bind
  generalize x c = result at agree
  generalize x d = result' at agree
  cases agree with
  | ok twin => exact rest _ _ _ twin
  | error twin => exact .error twin

/-- An outcome goes alike on twins. -/
lemma ofOutcome (outcome : Outcome α) : Indifferent (ofOutcome outcome) := by
  cases outcome with
  | ok a => exact .pure a
  | error e => exact .throw e

/-- What is read goes alike on twins. -/
lemma onSource (r : Reader α) : Indifferent (onSource r) := by
  intro c d twin
  have moved : ∀ s, Twin { c with source := s } { d with source := s } := fun s =>
    ⟨rfl, twin.lineEnding, twin.accepted, twin.left, twin.right⟩
  unfold Console.onSource
  rw [twin.source]
  cases r c.source with
  | ok a s => exact .ok (moved s)
  | error e s => exact .error (moved s)

/-- What brings out the same bytes on every console is indifferent, however it flushes. -/
lemma appends {bytes : List UInt8} {x : Action Unit} (appends : Appends bytes x) :
    Indifferent x := by
  intro c d twin
  obtain ⟨t, left, accepted, unfailing⟩ := appends c twin.left
  obtain ⟨u, right, accepted', unfailing'⟩ := appends d twin.right
  rw [left, right]
  refine .ok ⟨twin.source, twin.lineEnding, ?_, unfailing, unfailing'⟩
  show u.accepted = t.accepted
  rw [accepted, accepted', twin.accepted]

/-- A flush goes alike on twins. -/
lemma flush : Indifferent flush :=
  appends .flush

/-- Writing a value goes alike on twins. -/
lemma write (v : Value) : Indifferent (write v) :=
  appends (.emit _)

/-- Writing a line goes alike on twins. -/
lemma writeLine (v : Value) : Indifferent (writeLine v) := by
  intro c d twin
  show Agree (Console.emit (v.render ++ c.config.lineEnding.bytes) c)
    (Console.emit (v.render ++ d.config.lineEnding.bytes) d)
  rw [twin.lineEnding]
  exact appends (.emit _) c d twin

/-- A read goes alike on twins, even if only one of them is flushed before it. -/
lemma read (kind : Kind) : Indifferent (read kind) := by
  rw [read_eq]
  exact (appends .beforeRead).bind fun _ => .onSource _

/-- A console is its own twin, so a sink that does not fail stays one. -/
lemma unfailing {x : Action α} (indifferent : Indifferent x) {c d : Console} {a : α}
    (went : x c = .ok a d) (before : c.sink.Unfailing) : d.sink.Unfailing := by
  have agree := indifferent c c (.refl before)
  rw [went] at agree
  cases agree with
  | ok twin => exact twin.left

end Indifferent

end Teletype.Console
