import Mathlib
import Teletype.Fraction

/-!
# Inversion of fraction arithmetic

An operation on fractions is a row of checked steps. `Computes` judges such a row by the exact
results of its steps, in order: the operation has a result when all of them fit, and overflows at
the first that does not. `Binary.steps` lists the steps of an operation and `Binary.parts` what it
comes to; `Binary.computes` says that the operations follow their lists.
-/

namespace Teletype

namespace Checked

/-- An operation in a computation, with the exact result that it is to have. -/
structure Step where
  operation : Operation
  exact : Int

/-- An exact result that fits is the result. -/
lemma result_of_fits {n} (op : Operation) (fits : Fits n) :
    ∃ m : Int32, result op n = .ok m ∧ m.toInt = n := by
  cases found : ofInt? n with
  | none => exact absurd fits (ofInt?_eq_none_iff.mp found)
  | some m => exact ⟨m, by rw [result, found], toInt_of_ofInt? found⟩

/-- An exact result that does not fit is an overflow. -/
lemma result_of_not_fits {n} (op : Operation) (large : ¬ Fits n) : result op n = .error op := by
  rw [result, ofInt?_eq_none_iff.mpr large]

end Checked

namespace Fraction

open Checked (Step Fits)

/-- What becomes of a row of steps: a result with `P`, or the overflow of the first step whose exact
result does not fit. -/
inductive Computes {α : Type} (P : α → Prop) : List Step → Outcome α → Prop where
  | done {a} :
    P a →
    Computes P [] (.ok a)
  | next {op n steps outcome} :
    Fits n →
    Computes P steps outcome →
    Computes P (⟨op, n⟩ :: steps) outcome
  | overflow {op n steps} :
    ¬ Fits n →
    Computes P (⟨op, n⟩ :: steps) (.error (.abort (.overflow op)))

namespace Computes

variable {α : Type} {P : α → Prop} {steps : List Step} {outcome : Outcome α}

/-- A checked result comes first, and the rest goes on with its exact value. -/
lemma bind {op n} {k : Int32 → Outcome α}
    (rest : ∀ m : Int32, m.toInt = n → Computes P steps (k m)) :
    Computes P (⟨op, n⟩ :: steps) (checked (Checked.result op n) >>= k) := by
  by_cases fits : Fits n
  · obtain ⟨m, found, exact⟩ := Checked.result_of_fits op fits
    rw [found]
    exact .next fits (rest m exact)
  · rw [Checked.result_of_not_fits op fits]
    exact .overflow fits

/-- With a result, all steps have fitted. -/
lemma of_ok {a} (cp : Computes P steps outcome) (found : outcome = .ok a) :
    P a ∧ ∀ s ∈ steps, Fits s.exact := by
  induction cp with
  | done holds =>
    cases found
    exact ⟨holds, by simp⟩
  | next fits cp ih =>
    obtain ⟨holds, all⟩ := ih found
    exact ⟨holds, List.forall_mem_cons.mpr ⟨fits, all⟩⟩
  | overflow large => cases found

/-- A failure is the overflow of a step that does not fit, behind steps that all do. -/
lemma of_error {e} (cp : Computes P steps outcome) (found : outcome = .error e) :
    ∃ front op n rest, steps = front ++ ⟨op, n⟩ :: rest ∧ (∀ s ∈ front, Fits s.exact) ∧
      ¬ Fits n ∧ e = .abort (.overflow op) := by
  induction cp with
  | done holds => cases found
  | @next op n steps outcome fits cp ih =>
    obtain ⟨front, op', n', rest, rfl, all, large, why⟩ := ih found
    exact ⟨⟨op, n⟩ :: front, op', n', rest, rfl, List.forall_mem_cons.mpr ⟨fits, all⟩, large, why⟩
  | @overflow op n steps large =>
    cases found
    exact ⟨[], op, n, steps, rfl, by simp, large, rfl⟩

end Computes

/-! ## Operations -/

/-- Numerator and denominator. -/
def parts (f : Fraction) : Int × Int :=
  (f.numerator.toInt, f.denominator.toInt)

/-- The operations on two fractions. -/
inductive Binary
  | add
  | sub
  | mul
  | div
  deriving DecidableEq, Repr

namespace Binary

/-- The operation applied to two fractions. -/
def apply : Binary → Fraction → Fraction → Outcome Fraction
  | add => Fraction.add
  | sub => Fraction.sub
  | mul => Fraction.mul
  | div => Fraction.div

/-- The parts of a result, when nothing overflows on the way. -/
def parts : Binary → Int × Int → Int × Int → Int × Int
  | add, (an, ad), (bn, bd) => (an * bd + bn * ad, ad * bd)
  | sub, (an, ad), (bn, bd) => (an * bd + -bn * ad, ad * bd)
  | mul, (an, ad), (bn, bd) => (an * bn, ad * bd)
  | div, (an, ad), (bn, bd) => (an * bd, ad * bn)

/-- The steps to a result. -/
def steps : Binary → Int × Int → Int × Int → List Step
  | add, (an, ad), (bn, bd) =>
    [⟨.multiply, an * bd⟩, ⟨.multiply, bn * ad⟩, ⟨.add, an * bd + bn * ad⟩, ⟨.multiply, ad * bd⟩]
  | sub, (an, ad), (bn, bd) =>
    [⟨.negate, -bn⟩, ⟨.multiply, an * bd⟩, ⟨.multiply, -bn * ad⟩, ⟨.add, an * bd + -bn * ad⟩,
      ⟨.multiply, ad * bd⟩]
  | mul, (an, ad), (bn, bd) => [⟨.multiply, an * bn⟩, ⟨.multiply, ad * bd⟩]
  | div, (an, ad), (bn, bd) => [⟨.multiply, an * bd⟩, ⟨.multiply, ad * bn⟩]

end Binary

/-- The steps to the sum of a fraction and an integer. -/
def addIntSteps : Int × Int → Int → List Step
  | (an, ad), n => [⟨.multiply, n * ad⟩, ⟨.add, an + n * ad⟩]

/-- The parts of a fraction made of two integers. -/
lemma parts_mk {n d : Int32} {p q : Int} (numerator : n.toInt = p) (denominator : d.toInt = q) :
    parts ⟨n, d⟩ = (p, q) :=
  congrArg₂ Prod.mk numerator denominator

/-- The parts of a fraction after both of them were set. -/
lemma parts_set (f : Fraction) {n d : Int32} {p q : Int} (numerator : n.toInt = p)
    (denominator : d.toInt = q) : ((f.setNumerator n).setDenominator d).parts = (p, q) := by
  rw [setNumerator_setDenominator, parts_mk numerator denominator]

/-- A sum takes its steps in order. -/
lemma add_computes (a b : Fraction) :
    Computes (parts · = Binary.add.parts a.parts b.parts) (Binary.add.steps a.parts b.parts)
      (a.add b) := by
  refine .bind fun left hl => .bind fun right hr => ?_
  rw [← hl, ← hr]
  refine .bind fun numerator hn => .bind fun denominator hd => .done ?_
  exact parts_set a (by rw [hn, hl, hr]) hd

/-- Every operation takes its steps in order. -/
lemma Binary.computes (op : Binary) (a b : Fraction) :
    Computes (Fraction.parts · = op.parts a.parts b.parts) (op.steps a.parts b.parts)
      (op.apply a b) := by
  cases op with
  | add => exact add_computes a b
  | sub =>
    -- the sum with the opposite, which overflows before anything else is computed
    refine .bind fun opposite ho => ?_
    have sum := add_computes a (b.setNumerator opposite)
    rwa [show (b.setNumerator opposite).parts = (-b.numerator.toInt, b.denominator.toInt) from
      parts_mk ho rfl] at sum
  | mul => exact .bind fun numerator hn => .bind fun denominator hd => .done (parts_set a hn hd)
  | div => exact .bind fun numerator hn => .bind fun denominator hd => .done (parts_set b hn hd)

/-- A sum with an integer takes its steps in order. -/
lemma addInt_computes (a : Fraction) (n : Int32) :
    Computes (parts · = (a.parts.1 + n.toInt * a.parts.2, a.parts.2))
      (addIntSteps a.parts n.toInt) (a.addInt n) := by
  refine .bind fun whole hw => ?_
  rw [← hw]
  exact .bind fun numerator hn => .done (parts_mk (by rw [hn, hw]; rfl) rfl)

end Fraction

end Teletype
