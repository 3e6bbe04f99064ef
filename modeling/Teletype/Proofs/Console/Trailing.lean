import Mathlib
import Teletype.Proofs.Console.Words
import Teletype.Proofs.Output.Progress

/-!
# Faulty output trails perfect output

A computation on a console is run beside the same computation on a sink that never fails. As long as
nothing fails the two go alike; where the first one fails, what it has brought out is the front of
what the second one does (`Trails`). After a call of the sink has failed a computation makes no
further call, but flushes at most (`Ends`). `Tracks` says both of a computation and is closed under
composition.
-/

namespace Teletype

/-- The call came to nothing, and not only for being interrupted. -/
def Call.isFailure : Call → Bool
  | write bytes => bytes.isEmpty
  | writeFault kind => kind != .interrupted
  | flush => false
  | writeAbort | flushFault _ | flushAbort => true

/-- Behind a call that failed there are only flushes. -/
def Call.Halting (calls : List Call) : Prop :=
  calls.Pairwise fun call later => call.isFailure = true → later.isFlush = true

/-- Calls that take bytes off the front do not fail. -/
lemma Takes.not_failure {bytes calls left} (tk : Takes bytes calls left) :
    ∀ call ∈ calls, call.isFailure = false := by
  induction tk with
  | refl => simp
  | piece some tk ih => exact List.forall_mem_cons.mpr ⟨List.isEmpty_eq_false_iff.mpr some, ih⟩
  | again some tk ih => exact List.forall_mem_cons.mpr ⟨rfl, ih⟩

/-- Calls that did not fail may be followed by any that halt. -/
lemma Call.Halting.behind {calls later : List Call}
    (good : ∀ call ∈ calls, call.isFailure = false) (halting : Halting later) :
    Halting (calls ++ later) := by
  refine List.pairwise_append.mpr ⟨?_, halting, ?_⟩
  · exact List.pairwise_of_forall_mem_list fun call mem _ _ failure =>
      absurd failure (Bool.eq_false_iff.mp (good call mem))
  · exact fun call mem _ _ failure => absurd failure (Bool.eq_false_iff.mp (good call mem))

/-- Flushes may follow calls that halt at a failure. -/
lemma Call.Halting.flushes {calls later : List Call} (halting : Halting calls)
    (flushes : ∀ call ∈ later, call.isFlush = true) : Halting (calls ++ later) := by
  refine List.pairwise_append.mpr ⟨halting, ?_, ?_⟩
  · exact List.pairwise_of_forall_mem_list fun _ _ call mem _ => flushes call mem
  · exact fun _ _ call mem _ => flushes call mem

/-- Neither a write nor a flush fails, now or later. -/
structure Sink.Unfailing (s : Sink) : Prop where
  progress : s.Progresses
  willing : s.Willing

/-- On a sink that does not fail a write brings out all its bytes. -/
lemma Sink.Unfailing.write {s : Sink} (unfailing : s.Unfailing) (bytes : List UInt8) :
    ∃ t, Sink.write bytes s = .ok () t ∧ t.accepted = s.accepted ++ bytes ∧ t.Unfailing := by
  have wr := Sink.write_writes bytes s
  obtain ⟨t, found, progress, flushes⟩ := wr.progresses unfailing.progress
  rw [found] at wr
  have willing : t.Willing := by
    rw [Sink.Willing, flushes]
    exact unfailing.willing
  exact ⟨t, found, wr.accepted, progress, willing⟩

/-- On a sink that does not fail a flush brings out nothing more. -/
lemma Sink.Unfailing.flush {s : Sink} (unfailing : s.Unfailing) :
    ∃ t, Sink.flush s = .ok () t ∧ t.accepted = s.accepted ∧ t.Unfailing := by
  have fl := Sink.flush_flushes s
  have accepted := fl.accepted
  generalize Sink.flush s = result at fl accepted
  cases fl with
  | done => exact ⟨_, rfl, accepted, unfailing.progress, unfailing.willing.flushed .flush⟩
  | failed turn fails due => cases due.symm.trans unfailing.willing.refusal?

namespace Console

variable {α β : Type}

/-- The second console stands where the first one does, over a sink that never fails. -/
structure Alike (c d : Console) : Prop where
  source : d.source = c.source
  config : d.config = c.config
  accepted : d.sink.accepted = c.sink.accepted
  unfailing : d.sink.Unfailing

/-- Two results go alike, or the first one is a failure with the front of what the second one
brings out. -/
inductive Trails :
    EStateM.Result Failure Console α → EStateM.Result Failure Console α → Prop where
  | ok {a c d} :
    Alike c d →
    Trails (.ok a c) (.ok a d)
  | error {e c d} :
    Alike c d →
    Trails (.error e c) (.error e d)
  | behind {e c result} :
    c.sink.accepted <+: (Result.state result).sink.accepted →
    Trails (.error e c) result

/-- The calls made from `c` on: none fails on the way to a value, and they halt at a failure. -/
inductive Ends (c : Console) : EStateM.Result Failure Console α → Prop where
  | ok {a d calls} :
    d.sink.log = c.sink.log ++ calls →
    (∀ call ∈ calls, call.isFailure = false) →
    Ends c (.ok a d)
  | error {e d calls} :
    d.sink.log = c.sink.log ++ calls →
    Call.Halting calls →
    Ends c (.error e d)

/-- What leaves the sink alone makes no call. -/
lemma Ends.quiet {c : Console} {result : EStateM.Result Failure Console α}
    (same : (Result.state result).sink = c.sink) : Ends c result := by
  have log : (Result.state result).sink.log = c.sink.log ++ [] := by rw [same, List.append_nil]
  cases result with
  | ok a d => exact .ok log (by simp)
  | error e d => exact .error log List.Pairwise.nil

/-- In front of what halts at a failure may stand calls that did not fail. -/
lemma Ends.behind {c d : Console} {calls : List Call}
    {result : EStateM.Result Failure Console α} (log : d.sink.log = c.sink.log ++ calls)
    (good : ∀ call ∈ calls, call.isFailure = false) (ends : Ends d result) : Ends c result := by
  cases ends with
  | ok more good' =>
    rw [log, List.append_assoc] at more
    exact .ok more (List.forall_mem_append.mpr ⟨good, good'⟩)
  | error more halting =>
    rw [log, List.append_assoc] at more
    exact .error more (.behind good halting)

/-- However a computation ends, its calls halt at a failure. -/
lemma Ends.log {c : Console} {result : EStateM.Result Failure Console α} (ends : Ends c result) :
    ∃ calls, (Result.state result).sink.log = c.sink.log ++ calls ∧ Call.Halting calls := by
  cases ends with
  | ok log good =>
    have halting := Call.Halting.behind good List.Pairwise.nil
    rw [List.append_nil] at halting
    exact ⟨_, log, halting⟩
  | error log halting => exact ⟨_, log, halting⟩

/-- Nothing that is accepted is taken back. -/
lemma Ends.grows {c : Console} {result : EStateM.Result Failure Console α} (ends : Ends c result) :
    c.sink.accepted <+: (Result.state result).sink.accepted := by
  obtain ⟨calls, log, _⟩ := ends.log
  exact ⟨_, (Sink.accepted_append log).symm⟩

/-- Along with the perfect run, no other bytes are accepted. -/
lemma Trails.accepted {result perfect : EStateM.Result Failure Console α}
    (trails : Trails result perfect) :
    (Result.state result).sink.accepted <+: (Result.state perfect).sink.accepted := by
  cases trails with
  | ok alike => exact alike.accepted ▸ List.prefix_refl _
  | error alike => exact alike.accepted ▸ List.prefix_refl _
  | behind front => exact front

/-- The computation halts at its first failure, and trails itself on a sink that never fails. -/
structure Tracks (x : Action α) : Prop where
  ends : ∀ c, Ends c (x c)
  trails : ∀ c d, Alike c d → Trails (x c) (x d)

/-- A computation and one of two others, by how it went. -/
def branch (x : Action α) (f : α → Action β) (g : Failure → Action β) : Action β := fun c =>
  match x c with
  | .ok a d => f a d
  | .error e d => g e d

/-- What follows a value is a branch that passes on failures. -/
lemma bind_eq_branch (x : Action α) (f : α → Action β) :
    x >>= f = branch x f MonadExcept.throw := by
  funext c
  show EStateM.bind x f c = _
  unfold EStateM.bind branch
  cases x c <;> rfl

/-- The computation fails, with nothing but flushes on the way. -/
def Stops (x : Action α) : Prop :=
  ∀ c, ∃ e d calls, x c = .error e d ∧ d.sink.log = c.sink.log ++ calls ∧
    ∀ call ∈ calls, call.isFlush = true

/-- A failure stops at once. -/
lemma Stops.throw (e : Failure) : Stops (MonadExcept.throw e : Action α) := fun c =>
  ⟨e, c, [], rfl, (List.append_nil _).symm, by simp⟩

namespace Tracks

/-- A value makes no call. -/
lemma pure (a : α) : Tracks (Pure.pure a : Action α) where
  ends _ := .quiet rfl
  trails _ _ alike := .ok alike

/-- A failure makes no call. -/
lemma throw (e : Failure) : Tracks (MonadExcept.throw e : Action α) where
  ends _ := .quiet rfl
  trails _ _ alike := .error alike

/-- The induction step of a run: what follows a value goes on, what follows a failure stops. -/
lemma branch {x : Action α} {f : α → Action β} {g : Failure → Action β} (first : Tracks x)
    (rest : ∀ a, Tracks (f a)) (closing : ∀ e, Tracks (g e)) (stops : ∀ e, Stops (g e)) :
    Tracks (branch x f g) where
  ends c := by
    have ends := first.ends c
    unfold Console.branch
    generalize x c = result at ends
    cases ends with
    | ok log good => exact .behind log good ((rest _).ends _)
    | @error e d calls log halting =>
      obtain ⟨e', d', later, stopped, log', flushes⟩ := stops e d
      dsimp only
      rw [stopped]
      refine .error (log'.trans ?_) (halting.flushes flushes)
      rw [log, List.append_assoc]
  trails c d alike := by
    have trails := first.trails c d alike
    unfold Console.branch
    generalize x c = result at trails
    generalize x d = perfect at trails
    cases trails with
    | ok alike => exact (rest _).trails _ _ alike
    | error alike => exact (closing _).trails _ _ alike
    | @behind e c _ front =>
      obtain ⟨e', c', later, stopped, log, flushes⟩ := stops e c
      dsimp only
      rw [stopped]
      refine .behind ?_
      rw [Sink.accepted_flushes log flushes]
      -- the perfect run may go on, and only adds to what it has brought out
      cases perfect with
      | ok a d => exact front.trans ((rest a).ends d).grows
      | error e d => exact front.trans ((closing e).ends d).grows

/-- Computations that track go on tracking one after the other. -/
lemma bind {x : Action α} {f : α → Action β} (first : Tracks x) (rest : ∀ a, Tracks (f a)) :
    Tracks (x >>= f) := by
  rw [bind_eq_branch]
  exact first.branch rest throw Stops.throw

/-- What depends on the configuration alone goes alike. -/
lemma config {f : Config → Action α} (all : ∀ config, Tracks (f config)) :
    Tracks (do f (← get).config) where
  ends c := (all c.config).ends c
  trails c d alike := by
    have trails := (all c.config).trails c d alike
    show Trails (f c.config c) (f d.config d)
    rwa [alike.config]

/-- What is read makes no call. -/
lemma onSource (r : Reader α) : Tracks (onSource r) where
  ends c := by
    unfold Console.onSource
    cases r c.source with
    | ok a s => exact .quiet rfl
    | error e s => exact .quiet rfl
  trails c d alike := by
    have moved : ∀ s, Alike { c with source := s } { d with source := s } := fun s =>
      ⟨rfl, alike.config, alike.accepted, alike.unfailing⟩
    unfold Console.onSource
    rw [alike.source]
    cases r c.source with
    | ok a s => exact .ok (moved s)
    | error e s => exact .error (moved s)

/-- An outcome makes no call. -/
lemma ofOutcome (outcome : Outcome α) : Tracks (ofOutcome outcome) := by
  cases outcome with
  | ok a => exact .pure a
  | error e => exact .throw e

/-! ## Output -/

/-- A write halts at its failure. -/
lemma write (bytes : List UInt8) : Tracks (onSink (Sink.write bytes)) where
  ends c := by
    have wr := Sink.write_writes bytes c.sink
    unfold onSink
    generalize Sink.write bytes c.sink = result at wr
    cases wr with
    | whole tk rest => exact .ok rfl tk.not_failure
    | cut tk some turn fails rest =>
      exact .error rfl (.behind tk.not_failure (List.pairwise_singleton _ _))
  trails c d alike := by
    have wr := Sink.write_writes bytes c.sink
    obtain ⟨t, found, all, unfailing⟩ := alike.unfailing.write bytes
    rw [alike.accepted] at all
    unfold onSink
    rw [found]
    generalize Sink.write bytes c.sink = result at wr
    rcases result with ⟨⟨⟩, s⟩ | ⟨e, s⟩
    · exact .ok ⟨alike.source, alike.config, all.trans wr.accepted.symm, unfailing⟩
    · refine .behind ?_
      show s.accepted <+: t.accepted
      rw [all]
      exact wr.accepted_error

/-- A flush halts at its failure. -/
lemma flush : Tracks Console.flush where
  ends c := by
    have fl := Sink.flush_flushes c.sink
    unfold Console.flush onSink
    generalize Sink.flush c.sink = result at fl
    cases fl with
    | done quiet => exact .ok rfl (by simp [Call.isFailure])
    | failed turn fails due => exact .error rfl (List.pairwise_singleton _ _)
  trails c d alike := by
    have fl := Sink.flush_flushes c.sink
    have same := fl.accepted
    obtain ⟨t, found, all, unfailing⟩ := alike.unfailing.flush
    rw [alike.accepted] at all
    unfold Console.flush onSink
    rw [found]
    generalize Sink.flush c.sink = result at fl same
    cases fl with
    | done => exact .ok ⟨alike.source, alike.config, all.trans same.symm, unfailing⟩
    | failed turn fails due =>
      refine .behind ?_
      show _ <+: t.accepted
      rw [all, ← same]
      exact List.prefix_refl _

/-- So does a flush that depends on the configuration. -/
lemma flushIf (p : Bool) : Tracks (if p then Console.flush else Pure.pure ()) := by
  cases p with
  | false => exact .pure ()
  | true => exact .flush

/-- Bringing out a buffer halts at its first failure. -/
lemma emit (bytes : List UInt8) : Tracks (emit bytes) :=
  (write bytes).bind fun _ => .config fun config => .flushIf config.autoflush

/-- Writing a value halts at its first failure. -/
lemma writeValue (v : Value) : Tracks (Console.write v) :=
  emit _

/-- Writing a line halts at its first failure. -/
lemma writeLine (v : Value) : Tracks (writeLine v) :=
  .config fun config => .emit (v.render ++ config.lineEnding.bytes)

/-- A read halts at its first failure. -/
lemma read (kind : Kind) : Tracks (read kind) := by
  rw [read_eq]
  refine .bind ?_ fun _ => .onSource kind.reader
  exact .config fun config => .flushIf config.flushBeforeRead

end Tracks

end Console

end Teletype
