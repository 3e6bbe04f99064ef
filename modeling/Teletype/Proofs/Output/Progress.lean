import Mathlib
import Teletype.Proofs.Input.Session
import Teletype.Proofs.Output.Inversion

/-!
# Sinks that make progress

A sink makes progress when each of its actions on a write takes a byte or asks to be called again.
Such a sink takes all that is written to it, in however many calls (`Writes.progresses`); whether
its flushes fail does not matter to that.
-/

namespace Teletype

/-- The action takes at least one byte, or asks to be called again. -/
inductive WriteAction.Progresses : WriteAction → Prop where
  | all :
    Progresses .all
  | some {n} :
    0 < n →
    Progresses (.atMost n)
  | again {f} :
    f.isInterrupted = true →
    Progresses (.fault f)

/-- An action that takes bytes or asks again does not fail. -/
lemma WriteAction.Progresses.not_fails {action : WriteAction} {e call}
    (progress : action.Progresses) : ¬ action.Fails e call := by
  intro fails
  cases fails with
  | zero =>
    cases progress with
    | some positive => exact absurd positive (Nat.lt_irrefl 0)
  | fault fatal =>
    cases progress with
    | again interrupted => exact absurd interrupted (Bool.eq_false_iff.mp fatal)
  | abort => cases progress

namespace Sink

/-- Every write that the script holds takes bytes or asks again. -/
def Progresses (s : Sink) : Prop :=
  ∀ action ∈ s.writes, action.Progresses

/-- A sink that was never called has accepted nothing. -/
lemma accepted_of_fresh {s : Sink} (fresh : s.log = []) : s.accepted = [] := by
  rw [accepted, fresh]
  rfl

/-- The bytes of the calls come on top of those accepted before. -/
lemma accepted_append {s t : Sink} {calls : List Call} (log : t.log = s.log ++ calls) :
    t.accepted = s.accepted ++ calls.flatMap Call.bytes := by
  rw [accepted, log, List.flatMap_append]
  rfl

/-- Flushes do not change what the sink has accepted. -/
lemma accepted_flushes {s t : Sink} {calls : List Call} (log : t.log = s.log ++ calls)
    (flushes : ∀ call ∈ calls, call.isFlush = true) : t.accepted = s.accepted := by
  rw [accepted_append log, List.flatMap_eq_nil_iff.mpr, List.append_nil]
  exact fun call mem => Call.bytes_of_flush (flushes call mem)

/-- A flush adds nothing to what is accepted, whether it fails or not. -/
lemma Flushes.accepted {s result} (fl : Flushes s result) :
    (Result.state result).accepted = s.accepted := by
  cases fl with
  | done => exact accepted_flushes rfl (by simp [Call.isFlush])
  | failed turn fails => exact accepted_flushes rfl (by simp [fails.flush])

/-- A flush leaves the script of the writes alone. -/
lemma Flushes.progresses {s result} (fl : Flushes s result) (progress : s.Progresses) :
    (Result.state result).Progresses := by
  cases fl <;> exact progress

/-- A write brings out its bytes, or a part of them in front. -/
lemma Writes.accepted {bytes s t} (wr : Writes bytes s (.ok () t)) :
    t.accepted = s.accepted ++ bytes := by
  cases wr with
  | whole tk rest =>
    have all := tk.split
    rw [List.append_nil] at all
    rw [accepted_append rfl, ← all]

/-- A write that fails has brought out some bytes of its own at most. -/
lemma Writes.accepted_error {bytes s e t} (wr : Writes bytes s (.error e t)) :
    t.accepted <+: s.accepted ++ bytes := by
  cases wr with
  | @cut calls left action _ call rest tk some turn fails later =>
    refine ⟨left, ?_⟩
    rw [accepted_append rfl, List.flatMap_append, tk.split]
    simp [fails.bytes]

/-- On a sink that makes progress a write does not fail. -/
lemma Writes.progresses {bytes s result} (wr : Writes bytes s result) (progress : s.Progresses) :
    ∃ t, result = .ok () t ∧ t.Progresses ∧ t.flushes = s.flushes := by
  cases wr with
  | whole tk rest => exact ⟨_, rfl, fun action mem => progress action (rest.subset mem), rfl⟩
  | cut tk some turn fails rest =>
    exact absurd fails (progress _ (List.mem_of_getElem? turn)).not_fails

end Sink

end Teletype
