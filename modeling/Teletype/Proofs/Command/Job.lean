import Mathlib
import Teletype.Command.Run
import Teletype.Proofs.Console.Trailing

/-!
# Jobs

A job as one computation on a console. The programs only print (`prints_program`): they are binds of
writes and flushes, and each value that they compute is there. A scan is a branch at each kind, on
whether its echo succeeds.
-/

namespace Teletype.Command

open Console (Kind ofOutcome)

/-! ## Programs -/

/-- Values are written one after another, and none of them is missing. -/
inductive Prints : {α : Type} → Console.Action α → Prop where
  | value {α : Type} {outcome : Outcome α} :
    outcome.isOk = true →
    Prints (ofOutcome outcome)
  | write (v : Value) :
    Prints (Console.write v)
  | writeLine (v : Value) :
    Prints (Console.writeLine v)
  | flush :
    Prints Console.flush
  | bind {α β : Type} {x : Console.Action α} {f : α → Console.Action β} :
    Prints x →
    (∀ a, Prints (f a)) →
    Prints (x >>= f)

namespace Showcase

/-- A table only prints. -/
lemma prints_writeTable (table : List (String × Fraction)) : Prints (writeTable table) := by
  induction table with
  | nil =>
    have nothing : Except.isOk (.ok () : Outcome Unit) = true := rfl
    exact .value nothing
  | cons row table ih =>
    have written : Prints row.2.writeTo :=
      .bind (.write _) fun _ => .bind (.write _) fun _ => .writeLine _
    exact .bind (.write _) fun _ => .bind written fun _ => ih

/-- The program on fractions only prints. -/
lemma prints_fractions : Prints fractions := by
  have computed : fractionTable.isOk = true := by cbv
  exact .bind (.value computed) fun table => .bind (prints_writeTable table) fun _ => .flush

/-- The program on texts only prints. -/
lemma prints_texts : Prints texts := by
  unfold texts
  extract_lets text needle five
  -- each search and each cut of the program comes to a value
  have char : (text.indexOfChar 'g').isOk = true := by subst text; cbv
  have word : (text.indexOf needle).isOk = true := by subst text needle; cbv
  have tail : (text.substring five).isOk = true := by subst text five; cbv
  have part : (text.substringLen five five).isOk = true := by subst text five; cbv
  have sixth : (text.charAt five).isOk = true := by subst text five; cbv
  repeat
    first
    | with_reducible exact .flush
    | with_reducible refine .bind (.write _) fun _ => ?_
    | with_reducible refine .bind (.writeLine _) fun _ => ?_
    | with_reducible refine .bind (.value (by assumption)) fun _ => ?_

end Showcase

/-- Every program only prints. -/
lemma prints_program (program : Program) : Prints program.run := by
  cases program with
  | string => exact Showcase.prints_texts
  | fraction => exact Showcase.prints_fractions

/-! ## Scans -/

namespace Scan

/-- The scan as a computation on a console, without its attempts. -/
def action (kinds : List Kind) : Console.Action Unit := fun c =>
  match (run kinds c).outcome with
  | .ok () => .ok () (run kinds c).console
  | .error failure => .error failure (run kinds c).console

/-- What a scan reports of an error, given how its flush went. -/
def report (error : Error) :
    EStateM.Result Failure Console Unit → EStateM.Result Failure Console Unit
  | .error (.abort cause) d => .error (.abort cause) d
  | .ok () d | .error (.error _) d => .error (.error error) d

/-- What a scan does at a failure. -/
def close : Failure → Console.Action Unit
  | .error error => fun c => report error (Console.flush c)
  | .abort cause => throw (.abort cause)

/-- A scan of no kinds flushes. -/
lemma action_nil : action [] = Console.flush := by
  funext c
  simp only [action, run, finish]
  cases Console.flush c <;> rfl

/-- A scan goes on behind an echo that succeeds, and is closed behind one that fails. -/
lemma action_cons (kind : Kind) (rest : List Kind) :
    action (kind :: rest) = Console.branch (echo kind) (fun _ => action rest) close := by
  funext c
  unfold Console.branch
  cases went : echo kind c with
  | ok _ d => simp only [action, run, went]
  | error failure d =>
    cases failure with
    | abort cause => simp only [action, run, went, close]; rfl
    | error error =>
      simp only [action, run, went, close, giveUp]
      rcases Console.flush d with _ | ⟨_ | _, _⟩ <;> rfl

end Scan

/-! ## Jobs and orders -/

/-- The job as a computation on a console. -/
def Job.action : Job → Console.Action Unit
  | demo program => program.run
  | scan kinds => Scan.action kinds

/-- An order comes to what its job comes to. -/
lemma Order.run_job (order : Order) (c : Console) :
    (order.run c).console = Result.state (order.job.action c) ∧
      (order.run c).code = exitCode (Result.outcome (order.job.action c)) := by
  obtain ⟨job, verbose⟩ := order
  cases job with
  | demo program =>
    simp only [Order.run, runDemo, Job.action]
    cases program.run c <;> exact ⟨rfl, rfl⟩
  | scan kinds =>
    simp only [Order.run, runScan, Job.action, Scan.action]
    cases (Scan.run kinds c).outcome <;> exact ⟨rfl, rfl⟩

/-- Only success exits with zero. -/
lemma exitCode_eq_zero {outcome : Outcome Unit} (zero : exitCode outcome = 0) :
    outcome = .ok () := by
  rcases outcome with ⟨_ | _⟩ | ⟨⟩
  · cases zero
  · cases zero
  · rfl

end Teletype.Command
