import Mathlib
import Teletype.Proofs.Console.Inversion

/-!
# Console sessions

A session carries out operations one after another, whatever becomes of each, and keeps every step
with the console before and after it.
-/

namespace Teletype.Console

/-- An operation carried out on a console. -/
structure Step where
  operation : Operation
  before : Console
  outcome : Outcome (Option Value)
  after : Console

/-- The step of an operation on a console. -/
def Step.of (op : Operation) (c : Console) : Step where
  operation := op
  before := c
  outcome := Result.outcome (perform op c)
  after := Result.state (perform op c)

/-- The steps of operations one after the other. -/
def session : List Operation → Console → List Step
  | [], _ => []
  | op :: ops, c => Step.of op c :: session ops (Step.of op c).after

/-- The console that a session leaves. -/
def afterAll : List Operation → Console → Console
  | [], c => c
  | op :: ops, c => afterAll ops (Step.of op c).after

/-- Every step is that of an operation. -/
lemma step_carried (op : Operation) (c : Console) :
    Carried c op (Step.of op c).outcome (Step.of op c).after :=
  perform_carried op c

/-- A read leaves the configuration alone. -/
lemma Reads.config {kind c result} (rd : Reads kind c result) :
    (Result.state result).config = c.config := by
  cases rd <;> rfl

/-- Bringing out a buffer leaves the configuration alone. -/
lemma Emits.config {bytes c result} (em : Emits bytes c result) :
    (Result.state result).config = c.config := by
  cases em <;> rfl

/-- No operation changes the configuration. -/
lemma Carried.config {c op outcome d} (cr : Carried c op outcome d) : d.config = c.config := by
  cases cr with
  | read rd => exact rd.config
  | emit buffer em => exact em.config
  | flush fl => rfl

/-- A property that each step has under the configuration of a console, all steps have. -/
lemma session_forall {P : Step → Prop} {config : Config}
    (step : ∀ op c, c.config = config → P (Step.of op c)) (ops : List Operation) {c : Console}
    (same : c.config = config) : ∀ s ∈ session ops c, P s := by
  induction ops generalizing c with
  | nil => simp [session]
  | cons op ops ih =>
    have kept : (Step.of op c).after.config = config := (step_carried op c).config.trans same
    exact List.forall_mem_cons.mpr ⟨step op c same, ih kept⟩

end Teletype.Console
