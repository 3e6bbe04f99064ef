import Mathlib
import Teletype.Proofs.Console.Session

/-!
# The two sides of a console

Input and output do not get in each other's way. `Step.KeepsSides` says what an operation leaves
alone: a read writes nothing and flushes once or not at all, a read behind a failed flush takes
nothing in, and no other operation does. So the reads that get to the source go as they would
without any output around them (`session_sides`), whatever fails or aborts in between.
-/

namespace Teletype.Console

/-- The failure that holds off a read: the sink is flushed before it, and its script has one for
that flush. -/
def held? (c : Console) : Option Failure :=
  if c.config.flushBeforeRead then c.sink.refusal? else none

/-- The operation is a read. -/
def Operation.isRead : Operation → Bool
  | .read _ => true
  | .write _ | .writeLine _ | .flush => false

/-- A read that gets to the source. -/
def Step.isFree (step : Step) : Bool :=
  step.operation.isRead && step.before.held?.isNone

/-- A step as the input sees it. -/
structure Reading where
  outcome : Outcome (Option Value)
  source : Source
  rest : Source

/-- What the input sees of a step. -/
def Step.reading (step : Step) : Reading where
  outcome := step.outcome
  source := step.before.source
  rest := step.after.source

/-- What a step leaves alone. -/
structure Step.KeepsSides (step : Step) : Prop where
  /-- a read that is held off reports why, and takes nothing in -/
  held : ∀ e, step.operation.isRead = true → step.before.held? = some e →
    step.outcome = .error e ∧ step.after.source = step.before.source
  /-- a read flushes the sink once where it is to, and does nothing else there -/
  flushed : step.operation.isRead = true → step.before.config.flushBeforeRead = true →
    ∃ call, call.isFlush = true ∧ (call = .flush ↔ step.before.held? = none) ∧
      step.after.sink = step.before.sink.flushed call
  bare : step.operation.isRead = true → step.before.config.flushBeforeRead = false →
    step.after.sink = step.before.sink
  /-- what is no read takes nothing in -/
  apart : step.operation.isRead = false → step.after.source = step.before.source

/-- What brings out a buffer is no read. -/
lemma Operation.not_isRead {op : Operation} {config bytes}
    (buffer : op.buffer? config = some bytes) : op.isRead = false := by
  cases op with
  | read | flush => cases buffer
  | write | writeLine => rfl

/-- With a flush before each read, the failure is that of the flush. -/
lemma held?_of_on {c : Console} (on : c.config.flushBeforeRead = true) :
    c.held? = c.sink.refusal? :=
  if_pos on

/-- A read that goes on was not held off. -/
lemma Ready.held? {c t} (ready : Ready c t) : c.held? = none := by
  cases ready with
  | bare off => rw [Console.held?, off]; rfl
  | flushed on fl =>
    cases fl with
    | done quiet => rw [held?_of_on on, quiet]

/-- A read that goes on leaves the sink as it was or flushed once. -/
lemma Ready.flushed_once {c t} (ready : Ready c t) (on : c.config.flushBeforeRead = true) :
    t = c.sink.flushed .flush := by
  cases ready with
  | bare off => rw [on] at off; cases off
  | flushed on fl =>
    cases fl
    rfl

/-- Without a flush before it, a read leaves the sink alone. -/
lemma Ready.unchanged {c t} (ready : Ready c t) (off : c.config.flushBeforeRead = false) :
    t = c.sink := by
  cases ready with
  | bare => rfl
  | flushed on fl => rw [on] at off; cases off

/-- Bringing out a buffer takes nothing in. -/
lemma Emits.source {bytes c result} (em : Emits bytes c result) :
    (Result.state result).source = c.source := by
  cases em <;> rfl

/-- A read that is held off keeps to its side. -/
lemma keepsSides_of_held {kind c t e} (on : c.config.flushBeforeRead = true)
    (fl : Sink.Flushes c.sink (.error e t)) :
    Step.KeepsSides ⟨.read kind, c, .error e, { c with sink := t }⟩ := by
  cases fl with
  | failed turn fails due =>
    have held : c.held? = some e := (held?_of_on on).trans due
    refine ⟨?_, ?_, ?_, fun other => nomatch other⟩
    · intro e' _ why
      obtain rfl : e = e' := Option.some.inj (held.symm.trans why)
      exact ⟨rfl, rfl⟩
    · intro _ _
      refine ⟨_, fails.flush, ?_, rfl⟩
      simp only [held, reduceCtorEq, iff_false]
      cases fails <;> simp
    · intro _ off
      cases on.symm.trans off

/-- A read that goes on keeps to its side. -/
lemma keepsSides_of_ready {kind c t outcome d} (ready : Ready c t) (sink : d.sink = t) :
    Step.KeepsSides ⟨.read kind, c, outcome, d⟩ where
  held e _ why := by cases ready.held?.symm.trans why
  flushed _ on := ⟨.flush, rfl, by simp [ready.held?], sink.trans (ready.flushed_once on)⟩
  bare _ off := sink.trans (ready.unchanged off)
  apart other := nomatch other

/-- Every operation keeps to its side. -/
lemma Carried.keepsSides {c op outcome d} (cr : Carried c op outcome d) :
    Step.KeepsSides ⟨op, c, outcome, d⟩ := by
  cases cr with
  | read rd =>
    cases rd with
    | held on fl => exact keepsSides_of_held on fl
    | value ready found => exact keepsSides_of_ready ready rfl
    | failed ready found => exact keepsSides_of_ready ready rfl
  | emit buffer em =>
    have no : ¬ op.isRead = true := Bool.eq_false_iff.mp (Operation.not_isRead buffer)
    exact ⟨fun _ is => absurd is no, fun is => absurd is no, fun is => absurd is no,
      fun _ => em.source⟩
  | flush fl => exact ⟨nofun, nofun, nofun, fun _ => rfl⟩

/-- A read that is not held off is its reader on the source. -/
lemma Reads.free {kind c result} (rd : Reads kind c result) (free : c.held? = none) :
    Result.outcome result = Result.outcome (kind.reader c.source) ∧
      (Result.state result).source = Result.state (kind.reader c.source) := by
  cases rd with
  | held on fl =>
    cases fl with
    | failed turn fails due => cases (due.symm.trans ((held?_of_on on).symm.trans free))
  | value ready found =>
    rw [found]
    exact ⟨rfl, rfl⟩
  | failed ready found =>
    rw [found]
    exact ⟨rfl, rfl⟩

/-- Reads of one kind that are not held off go alike from the same source. -/
lemma reading_of_free (kind : Kind) {c d : Console} (same : d.source = c.source)
    (freec : c.held? = none) (freed : d.held? = none) :
    (Step.of (.read kind) d).reading = (Step.of (.read kind) c).reading := by
  obtain ⟨outcome, rest⟩ := (read_reads kind c).free freec
  obtain ⟨outcome', rest'⟩ := (read_reads kind d).free freed
  rw [same] at outcome' rest'
  simp only [Step.reading, Step.of, perform, Result.outcome_map, Result.state_map, outcome,
    outcome', rest, rest', same]

/-- Without a flush before it, no read is held off. -/
lemma held?_of_off {c : Console} (off : c.config.flushBeforeRead = false) : c.held? = none := by
  rw [Console.held?, off]
  rfl

/-- Every step keeps to its side. -/
lemma step_keepsSides (op : Operation) (c : Console) : (Step.of op c).KeepsSides :=
  (step_carried op c).keepsSides

/-- The free steps are the reads that are not held off. -/
lemma Step.isFree_iff {step : Step} : step.isFree = true ↔
    (∃ kind, step.operation = .read kind) ∧ step.before.held? = none := by
  rw [Step.isFree, Bool.and_eq_true, Option.isNone_iff_eq_none]
  refine and_congr_left fun _ => ?_
  cases step.operation <;> simp [Operation.isRead]

/-- What does not get to the source leaves it as it is. -/
lemma source_of_not_free {op c} (free : ¬ (Step.of op c).isFree = true) :
    (Step.of op c).after.source = c.source := by
  have sides := step_keepsSides op c
  cases op with
  | read kind =>
    -- a read that is not free was held off
    cases why : c.held? with
    | none => exact absurd (Step.isFree_iff.mpr ⟨⟨kind, rfl⟩, why⟩) free
    | some e => exact (sides.held e rfl why).2
  | write => exact sides.apart rfl
  | writeLine => exact sides.apart rfl
  | flush => exact sides.apart rfl

/-- The induction goes along the session on the first console; the second one carries out the reads
that get to the source there, and has the same source at each of them. -/
lemma session_free (ops : List Operation) {c d : Console} (same : d.source = c.source)
    (off : d.config.flushBeforeRead = false) :
    let free := (session ops c).filter Step.isFree
    let reads := free.map Step.operation
    free.map Step.reading = (session reads d).map Step.reading ∧
      (afterAll ops c).source = (afterAll reads d).source := by
  induction ops generalizing c d with
  | nil => exact ⟨rfl, same.symm⟩
  | cons op ops ih =>
    by_cases free : (Step.of op c).isFree = true
    · obtain ⟨⟨kind, read⟩, freec⟩ := Step.isFree_iff.mp free
      obtain rfl : op = .read kind := read
      have alike := reading_of_free kind same freec (held?_of_off off)
      have rest : (Step.of (.read kind) d).after.source = (Step.of (.read kind) c).after.source :=
        congrArg Reading.rest alike
      have still : (Step.of (.read kind) d).after.config.flushBeforeRead = false := by
        rw [(step_carried (.read kind) d).config, off]
      obtain ⟨readings, last⟩ := ih rest still
      simp only [session, List.filter_cons_of_pos free, List.map_cons]
      exact ⟨congrArg₂ List.cons alike.symm readings, last⟩
    · have rest := source_of_not_free free
      simp only [session, List.filter_cons_of_neg free]
      exact ih (same.trans rest.symm) off

/-- However reads, writes and flushes follow each other, and whatever fails or aborts on either
side, the reads that are not held off by a flush go as they do alone and without flushes; each
operation keeps to its side. -/
theorem session_sides (c : Console) (ops : List Operation) (sink : Sink) :
    let steps := session ops c
    let free := steps.filter Step.isFree
    let reads := free.map Step.operation
    let alone : Console := { c with sink, config := { c.config with flushBeforeRead := false } }
    free.map Step.reading = (session reads alone).map Step.reading ∧
      (afterAll ops c).source = (afterAll reads alone).source ∧
      ∀ step ∈ steps, step.before.config = c.config ∧ step.KeepsSides := by
  intro steps free reads alone
  obtain ⟨alike, rest⟩ := session_free ops (c := c) (d := alone) rfl rfl
  refine ⟨alike, rest, session_forall ?_ ops rfl⟩
  intro op d config
  exact ⟨config, step_keepsSides op d⟩

end Teletype.Console
