import Mathlib
import Teletype.Input.Scanner

/-!
# Sessions

A session is a run of requests on one scanner, going on past failures and aborts. For each request
it keeps the outcome, the number of bytes consumed and the data still unread: all that a caller can
learn.
-/

namespace Teletype

namespace Result

variable {σ α β : Type}

/-- The value or the failure of a result. -/
def outcome : EStateM.Result Failure σ α → Outcome α
  | .ok a _ => .ok a
  | .error e _ => .error e

/-- The state that a computation leaves, also when it fails. -/
def state : EStateM.Result Failure σ α → σ
  | .ok _ s => s
  | .error _ s => s

/-- A function is applied to the value of a result. -/
@[simp] lemma outcome_map (f : α → β) (x : EStateM Failure σ α) (s : σ) :
    outcome ((f <$> x) s) = (outcome (x s)).map f := by
  change outcome (EStateM.map f x s) = _
  unfold EStateM.map
  cases x s <;> rfl

/-- What is made of the value does not change the state. -/
@[simp] lemma state_map (f : α → β) (x : EStateM Failure σ α) (s : σ) :
    state ((f <$> x) s) = state (x s) := by
  change state (EStateM.map f x s) = _
  unfold EStateM.map
  cases x s <;> rfl

/-- The result with its state mapped. -/
def mapState {τ : Type} (φ : σ → τ) : EStateM.Result Failure σ α → EStateM.Result Failure τ α
  | .ok a s => .ok a (φ s)
  | .error e s => .error e (φ s)

/-- A change of the state does not change the outcome. -/
@[simp] lemma outcome_mapState {τ : Type} (φ : σ → τ) (result : EStateM.Result Failure σ α) :
    outcome (mapState φ result) = outcome result := by
  cases result <;> rfl

/-- A change of the state is applied to it, whatever the outcome. -/
@[simp] lemma state_mapState {τ : Type} (φ : σ → τ) (result : EStateM.Result Failure σ α) :
    state (mapState φ result) = φ (state result) := by
  cases result <;> rfl

end Result

namespace Scanner

/-- A carriage return. -/
abbrev cr : UInt8 := 0x0D

/-- A line feed. -/
abbrev lf : UInt8 := 0x0A

/-- What a caller learns of a request. -/
structure Reply where
  outcome : Outcome Item
  consumed : Nat
  unread : List UInt8

/-- The reply that a result makes, seen from the source `s` it started on. -/
def Reply.of (s : Source) (result : EStateM.Result Failure Source Item) : Reply where
  outcome := Result.outcome result
  consumed := (Result.state result).consumed - s.consumed
  unread := (Result.state result).unread

/-- A reply counts the bytes that were consumed. -/
lemma Reply.consumed_of {s : Source} {result bs} (passed : s.Consumes bs (Result.state result)) :
    (Reply.of s result).consumed = bs.length := by
  show (Result.state result).consumed - s.consumed = bs.length
  rw [passed.consumed, Nat.add_sub_cancel_left]

/-- Makes the requests one after another, whatever becomes of each. -/
def session (refill : Refill) : List Request → Source → List Reply
  | [], _ => []
  | q :: qs, s =>
    let result := answer refill q s
    Reply.of s result :: session refill qs (Result.state result)

end Scanner

end Teletype
