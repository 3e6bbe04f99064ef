import Mathlib
import Teletype.Proofs.Command.Job
import Teletype.Proofs.Command.Scan

/-!
# What comes out is the front of what should

On a faulty sink an order brings out the front of what it brings out on a sink that never fails, and
all of it if it succeeds (`Order.output_front`). The programs only print, and `Tracks` is closed
under that; a scan stops at its first failure, and the flush that it still makes takes no byte.
-/

namespace Teletype.Command

open Console (Kind Trails Ends Tracks)

/-! ## The programs -/

/-- What only prints halts at its first failure. -/
lemma Prints.tracks {α : Type} {x : Console.Action α} (prints : Prints x) : Tracks x := by
  induction prints with
  | value => exact .ofOutcome _
  | write v => exact .writeValue v
  | writeLine v => exact .writeLine v
  | flush => exact .flush
  | bind _ _ first rest => exact first.bind rest

/-! ## Scans -/

/-- An echo halts at its first failure. -/
lemma tracks_echo (kind : Kind) : Tracks (echo kind) :=
  .bind (.read kind) fun v => .writeLine v

namespace Scan

/-- Kinds that were echoed are done with. -/
lemma action_append {front : List Kind} {c d : Console} (es : Echoes front c d) (rest : List Kind) :
    action (front ++ rest) c = action rest d := by
  unfold action
  rw [run_append es]

/-- A scan is closed at a read that fails. -/
lemma action_of_read {kind : Kind} {c d : Console} {failure : Failure} (rest : List Kind)
    (failed : Console.read kind c = .error failure d) :
    action (kind :: rest) c = close failure d := by
  rw [action_cons, Console.branch, (EchoFails.read failed).echo]

/-- A report is always a failure. -/
lemma report_eq (error : Error) (result : EStateM.Result Failure Console Unit) :
    ∃ failure, report error result = .error failure (Result.state result) := by
  rcases result with _ | ⟨_ | _, _⟩ <;> exact ⟨_, rfl⟩

/-- Runs that go alike, or one behind the other, do so when they report an error. -/
lemma trails_report {result perfect : EStateM.Result Failure Console Unit} (error : Error)
    (trails : Trails result perfect) : Trails (report error result) (report error perfect) := by
  cases trails with
  | ok alike => exact .error alike
  | @error e _ _ alike => cases e <;> exact .error alike
  | @behind e c _ front =>
    obtain ⟨failure, reported⟩ := report_eq error (.error e c)
    obtain ⟨failure', reported'⟩ := report_eq error perfect
    rw [reported, reported']
    exact .behind front

/-- Closing a scan makes nothing but flushes and ends with a failure. -/
lemma stops_close (failure : Failure) : Console.Stops (close failure) := by
  cases failure with
  | abort cause => exact .throw _
  | error error =>
    intro c
    obtain ⟨failure, reported⟩ := report_eq error (Console.flush c)
    have once := flush_once c
    refine ⟨failure, Result.state (Console.flush c), ?_⟩
    simp only [close]
    generalize Console.flush c = result at once reported
    generalize Result.state result = d, Result.outcome result = outcome at once reported
    cases once with
    | done quiet => exact ⟨[.flush], reported, rfl, by simp [Call.isFlush]⟩
    | @failed _ call due flush => exact ⟨[call], reported, rfl, by simp [flush]⟩

/-- Closing a scan halts at its first failure. -/
lemma tracks_close (failure : Failure) : Tracks (close failure) := by
  cases failure with
  | abort cause => exact .throw _
  | error error =>
    refine ⟨fun c => ?_, fun c d alike => trails_report error (Tracks.flush.trails c d alike)⟩
    obtain ⟨e, d, calls, closed, log, flushes⟩ := stops_close (.error error) c
    rw [closed]
    exact .error log (Call.Halting.flushes List.Pairwise.nil flushes)

/-- A scan is tracked kind by kind. Behind a failure that only the faulty sink has, it makes no
call but the flush, so what it has brought out stays the front of the rest. -/
lemma tracks_action (kinds : List Kind) : Tracks (action kinds) := by
  induction kinds with
  | nil =>
    rw [action_nil]
    exact .flush
  | cons kind rest ih =>
    rw [action_cons]
    exact (tracks_echo kind).branch (fun _ => ih) tracks_close stops_close

end Scan

/-! ## Orders -/

/-- Every job halts at its first failure. -/
lemma tracks_job (job : Job) : Tracks job.action := by
  cases job with
  | demo program => exact (prints_program program).tracks
  | scan kinds => exact Scan.tracks_action kinds

/-- Beside the same order on a sink that never fails, an order on any sink brings out the front of
what that one does, and all of it if it exits well. Behind a call that fails it makes no write, nor
behind a read that fails. -/
theorem Order.output_front (order : Order) (c : Console) (sink : Sink)
    (unfailing : sink.Unfailing) (same : sink.accepted = c.sink.accepted) :
    let faulty := order.run c
    let perfect := order.run { c with sink }
    faulty.console.sink.accepted <+: perfect.console.sink.accepted ∧
      (faulty.code = 0 → faulty.console.sink.accepted = perfect.console.sink.accepted) ∧
      (∃ calls, faulty.console.sink.log = c.sink.log ++ calls ∧ Call.Halting calls) ∧
      ∀ front kind rest d failure e, order.job = .scan (front ++ kind :: rest) →
        Echoes front c d → Console.read kind d = .error failure e →
          ∃ calls, faulty.console.sink.log = e.sink.log ++ calls ∧
            ∀ call ∈ calls, call.isFlush = true := by
  intro faulty perfect
  have tracks := tracks_job order.job
  have alike : Console.Alike c { c with sink } := ⟨rfl, rfl, same, unfailing⟩
  have trails := tracks.trails c { c with sink } alike
  obtain ⟨left, code⟩ := order.run_job c
  obtain ⟨left', -⟩ := order.run_job { c with sink }
  refine ⟨?_, fun well => ?_, ?_, ?_⟩
  · rw [left, left']
    exact trails.accepted
  · -- an order that exits well has gone along with the perfect run to its end
    have ok := exitCode_eq_zero (code.symm.trans well)
    rw [left, left']
    generalize order.job.action c = result at trails ok
    generalize order.job.action { c with sink } = result' at trails
    cases trails with
    | ok alike => exact alike.accepted.symm
    | error | behind => cases ok
  · rw [left]
    exact (tracks.ends c).log
  · intro front kind rest d failure e job es failed
    -- the scan stands at the read that fails, and all it does from there on is close
    obtain ⟨e', f, calls, closed, log, flushes⟩ := Scan.stops_close failure e
    rw [left, job, Job.action, Scan.action_append es, Scan.action_of_read rest failed, closed]
    exact ⟨calls, log, flushes⟩

/-- The pipe breaks behind the first of two echoes, which went out in two pieces. -/
theorem Order.output_front_torn :
    let order : Order := ⟨.scan [.int, .int], false⟩
    let script : List WriteAction :=
      [.atMost 1, .fault ⟨.interrupted, "again"⟩, .all, .fault ⟨.brokenPipe, "closed"⟩]
    let c : Console := ⟨.ofEvents [.data 0x31 [0x20, 0x32]], { writes := script }, {}⟩
    let faulty := order.run c
    let perfect := order.run { c with sink := {} }
    faulty.console.sink.accepted <+: perfect.console.sink.accepted ∧
      faulty.console.sink.accepted = [0x31, 0x0A] ∧
      perfect.console.sink.accepted = [0x31, 0x0A, 0x32, 0x0A] ∧
      faulty.console.sink.log =
        [.flush, .write [0x31], .writeFault .interrupted, .write [0x0A], .flush,
          .writeFault .brokenPipe, .flush] := by
  intro order script c faulty perfect
  have unfailing : Sink.Unfailing {} := ⟨by simp [Sink.Progresses], by simp [Sink.Willing]⟩
  refine ⟨(order.output_front c {} unfailing rfl).1, ?_, ?_, ?_⟩
  · subst faulty c script order
    cbv
  · subst perfect c script order
    cbv
  · subst faulty c script order
    cbv

end Teletype.Command
