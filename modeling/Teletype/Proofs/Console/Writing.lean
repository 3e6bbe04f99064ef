import Mathlib
import Teletype.Proofs.Console.Sides

/-!
# Exact output

What a console writes reaches the sink in full or up to a failure, each byte once and in order.
`Brings` has a rule for each way in which a buffer can be brought out, with the bytes accepted of it
and the calls made. `session_exact` adds these up over a session, whatever the sink does to it.
-/

namespace Teletype.Console

/-- How bringing out a buffer to a sink ends, the bytes of it that the sink accepts, and the calls
that the sink gets. A failure is that of the action which the sink's script holds for the call. -/
inductive Brings (autoflush : Bool) (sink : Sink) (buffer : List UInt8) :
    Outcome (Option Value) → List UInt8 → List Call → Prop where
  | written {calls} :
    autoflush = false →
    Takes buffer calls [] →
    Brings autoflush sink buffer (.ok none) buffer calls
  | flushed {calls} :
    autoflush = true →
    Takes buffer calls [] →
    Brings autoflush sink buffer (.ok none) buffer (calls ++ [.flush])
  | cut {front left calls e call} {action : WriteAction} :
    buffer = front ++ left →
    left ≠ [] →
    Takes buffer calls left →
    sink.writes[calls.length]? = some action →
    action.Fails e call →
    Brings autoflush sink buffer (.error e) front (calls ++ [call])
  | unflushed {calls e call} {action : FlushAction} :
    autoflush = true →
    Takes buffer calls [] →
    sink.flushes.head? = some action →
    action.Fails e call →
    Brings autoflush sink buffer (.error e) buffer (calls ++ [call])

/-- The calls add up to what is accepted; they flush just when autoflush is on and all of the buffer
is, and do nothing else for an empty buffer. -/
structure Exact (autoflush : Bool) (buffer accepted : List UInt8) (calls : List Call) : Prop where
  bytes : calls.flatMap Call.bytes = accepted
  flush : (∃ call ∈ calls, call.isFlush = true) ↔ autoflush = true ∧ accepted = buffer
  empty : buffer = [] → ∀ call ∈ calls, call.isFlush = true

/-- A buffer that is only written is accepted exactly. -/
lemma Exact.written {autoflush buffer calls} (off : autoflush = false)
    (tk : Takes buffer calls []) : Exact autoflush buffer buffer calls where
  bytes := by simpa using tk.split.symm
  flush := by
    have none := tk.not_flush
    simp only [off, Bool.false_eq_true, false_and, iff_false, not_exists, not_and]
    intro call mem
    simp [none call mem]
  empty e := by
    subst e
    simp [tk.of_nil]

/-- A buffer that is written and flushed is accepted exactly, whatever came of the flush. -/
lemma Exact.flushed {autoflush buffer calls call} (on : autoflush = true)
    (tk : Takes buffer calls []) (flush : call.isFlush = true) :
    Exact autoflush buffer buffer (calls ++ [call]) where
  bytes := by
    have all := tk.split
    simpa [Call.bytes_of_flush flush] using all.symm
  flush := by
    refine ⟨fun _ => ⟨on, rfl⟩, fun _ => ⟨call, ?_, flush⟩⟩
    simp
  empty e := by
    subst e
    simp [tk.of_nil, flush]

/-- A buffer whose write fails is accepted exactly up to there. -/
lemma Exact.cut {autoflush front left calls e call} {action : WriteAction} (some : left ≠ [])
    (tk : Takes (front ++ left) calls left) (fails : action.Fails e call) :
    Exact autoflush (front ++ left) front (calls ++ [call]) where
  bytes := by
    have taken := List.append_cancel_right tk.split
    simp [fails.bytes, taken]
  flush := by
    have none := tk.not_flush
    constructor
    · rintro ⟨c, mem, flush⟩
      rcases List.mem_append.mp mem with mem | mem
      · simp [none c mem] at flush
      · obtain rfl := List.mem_singleton.mp mem
        simp [fails.not_flush] at flush
    · rintro ⟨_, all⟩
      exact absurd (List.self_eq_append_right.mp all) some
  empty e := absurd (List.append_eq_nil_iff.mp e).2 some

/-- Whatever way a buffer is brought out, the calls add up. -/
lemma Brings.exact {autoflush sink buffer outcome accepted calls}
    (br : Brings autoflush sink buffer outcome accepted calls) :
    Exact autoflush buffer accepted calls := by
  cases br with
  | written off tk => exact .written off tk
  | flushed on tk => exact .flushed on tk rfl
  | cut split some tk turn fails =>
    subst split
    exact .cut some tk fails
  | unflushed on tk turn fails => exact .flushed on tk fails.flush

/-- Bringing out a buffer is one of these ways. -/
lemma Emits.brings {bytes c result} (em : Emits bytes c result) :
    ∃ accepted calls, (Result.state result).sink.log = c.sink.log ++ calls ∧
      Brings c.config.autoflush c.sink bytes ((Result.outcome result).map fun _ => none)
        accepted calls := by
  cases em with
  | written off wr =>
    cases wr with
    | whole tk rest => exact ⟨_, _, rfl, .written off tk⟩
  | flushed on wr fl =>
    cases wr with
    | whole tk rest =>
      cases fl with
      | done => exact ⟨_, _, List.append_assoc _ _ _, .flushed on tk⟩
  | cut wr =>
    cases wr with
    | cut tk some turn fails rest => exact ⟨_, _, rfl, .cut tk.split some tk turn fails⟩
  | unflushed on wr fl =>
    cases wr with
    | whole tk rest =>
      cases fl with
      | failed turn fails => exact ⟨_, _, List.append_assoc _ _ _, .unflushed on tk turn fails⟩

/-! ## Sessions -/

/-- What a step adds to the bytes accepted. -/
inductive Step.Adds (config : Config) (step : Step) : List UInt8 → Prop where
  | buffer {buffer accepted calls} :
    step.operation.buffer? config = some buffer →
    step.after.sink.log = step.before.sink.log ++ calls →
    Brings config.autoflush step.before.sink buffer step.outcome accepted calls →
    Exact config.autoflush buffer accepted calls →
    Adds config step accepted
  | nothing (calls : List Call) :
    step.operation.buffer? config = none →
    step.after.sink.log = step.before.sink.log ++ calls →
    (∀ call ∈ calls, call.isFlush = true) →
    Adds config step []

/-- Every operation adds a piece of its own, or none, to what is accepted. -/
lemma Carried.adds {c op outcome d} (cr : Carried c op outcome d) :
    ∃ accepted, Step.Adds c.config ⟨op, c, outcome, d⟩ accepted := by
  have sides := cr.keepsSides
  cases cr with
  | read rd =>
    cases on : c.config.flushBeforeRead with
    | true =>
      obtain ⟨call, flush, _, sink⟩ := sides.flushed rfl on
      exact ⟨[], .nothing [call] rfl (congrArg Sink.log sink) (by simpa using flush)⟩
    | false =>
      have log := congrArg Sink.log (sides.bare rfl on)
      exact ⟨[], .nothing [] rfl (log.trans (List.append_nil _).symm) (by simp)⟩
  | emit buffer em =>
    obtain ⟨accepted, calls, log, br⟩ := em.brings
    exact ⟨accepted, .buffer buffer log br br.exact⟩
  | flush fl =>
    cases fl with
    | done => exact ⟨[], .nothing [.flush] rfl rfl (by simp [Call.isFlush])⟩
    | failed turn fails => exact ⟨[], .nothing [_] rfl rfl (by simpa using fails.flush)⟩

/-- What a step adds stands behind what was accepted before. -/
lemma Step.Adds.accepted {config step piece} (adds : Step.Adds config step piece) :
    step.after.sink.accepted = step.before.sink.accepted ++ piece := by
  have grows : ∀ {calls}, step.after.sink.log = step.before.sink.log ++ calls →
      step.after.sink.accepted = step.before.sink.accepted ++ calls.flatMap Call.bytes := by
    intro calls log
    rw [Sink.accepted, log, List.flatMap_append]
    rfl
  cases adds with
  | buffer buffer log br exact => rw [grows log, exact.bytes]
  | nothing calls none log flushes =>
    rw [grows log, List.flatMap_eq_nil_iff.mpr]
    exact fun call mem => Call.bytes_of_flush (flushes call mem)

/-- Whatever the sink does to a session, each write brings out its buffer or, when one of its calls
fails, a proper prefix; the bytes accepted are these in the order of the writes. -/
theorem session_exact (c : Console) (ops : List Operation) :
    ∃ pieces, List.Forall₂ (Step.Adds c.config) (session ops c) pieces ∧
      (afterAll ops c).sink.accepted = c.sink.accepted ++ pieces.flatten := by
  induction ops generalizing c with
  | nil => exact ⟨[], .nil, (List.append_nil _).symm⟩
  | cons op ops ih =>
    have cr := step_carried op c
    obtain ⟨piece, adds⟩ := cr.adds
    obtain ⟨pieces, all, accepted⟩ := ih (Step.of op c).after
    rw [cr.config] at all
    refine ⟨piece :: pieces, .cons adds all, ?_⟩
    have first : (Step.of op c).after.sink.accepted = c.sink.accepted ++ piece := adds.accepted
    rw [afterAll, accepted, first, List.flatten_cons, List.append_assoc]

end Teletype.Console
