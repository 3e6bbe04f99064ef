import Mathlib
import Teletype.Proofs.Fraction.Inversion

/-!
# Exact fractions

Nothing is lost in the arithmetic of fractions: what does not fit 32 bits aborts, and all else is
exact. An `Expression` puts fractions and integers together by the operations;
`eval_exact_or_overflow` compares its evaluation with its value among the rational numbers, and says
of each operation on any operands which overflow ends it.
-/

namespace Teletype.Fraction

open Checked (Step Fits)

/-- The rational number that a fraction stands for when its denominator is not zero. -/
def value (f : Fraction) : ℚ :=
  f.numerator.toInt / f.denominator.toInt

/-- The exact result of an operation. -/
def Binary.onValues : Binary → ℚ → ℚ → ℚ
  | add, p, q => p + q
  | sub, p, q => p - q
  | mul, p, q => p * q
  | div, p, q => p / q

/-- Sums, differences, products and quotients of fractions, and sums with an integer on either side.
-/
inductive Expression
  | fraction (f : Fraction)
  | binary (op : Binary) (a b : Expression)
  | addInt (a : Expression) (n : Int32)
  | intAdd (n : Int32) (a : Expression)
  deriving DecidableEq, Repr

namespace Expression

/-- Evaluates the operands, the left one first, and then the operation. -/
def eval : Expression → Outcome Fraction
  | fraction f => .ok f
  | binary op a b => do
    let f ← a.eval
    let g ← b.eval
    op.apply f g
  | addInt a n => do
    let f ← a.eval
    f.addInt n
  | intAdd n a => do
    let f ← a.eval
    Fraction.intAdd n f

/-- The rational number that an expression stands for. -/
def value : Expression → ℚ
  | fraction f => f.value
  | binary op a b => op.onValues a.value b.value
  | addInt a n => a.value + n.toInt
  | intAdd n a => n.toInt + a.value

/-- No fraction in the expression has the denominator zero, and no divisor comes out with the
numerator zero. -/
def Proper : Expression → Prop
  | fraction f => f.denominator ≠ 0
  | binary op a b =>
    a.Proper ∧ b.Proper ∧ (op = .div → ∀ f, b.eval = .ok f → f.numerator ≠ 0)
  | addInt a _ => a.Proper
  | intAdd _ a => a.Proper

end Expression

/-! ## Exact results -/

/-- An integer of 32 bits is zero just when its number is. -/
lemma toInt_ne_zero {n : Int32} : n.toInt ≠ 0 ↔ n ≠ 0 := by
  rw [Ne, ← Int32.toInt_zero, Int32.toInt_inj]

/-- The fraction stands for a rational number, over a denominator that is not zero. -/
structure Denotes (f : Fraction) (q : ℚ) : Prop where
  some : f.denominator ≠ 0
  exact : f.value = q

/-- A fraction stands for the quotient of its parts. -/
lemma Denotes.of_parts {f : Fraction} {p : Int × Int} (parts : f.parts = p) (some : p.2 ≠ 0) :
    f.Denotes (p.1 / p.2) := by
  subst parts
  exact ⟨toInt_ne_zero.mp some, rfl⟩

/-- No operation brings a denominator of zero, unless the divisor is zero. -/
lemma Binary.parts_ne_zero {op : Binary} {an ad bn bd : Int} (ha : ad ≠ 0) (hb : bd ≠ 0)
    (divisor : op = .div → bn ≠ 0) : (op.parts (an, ad) (bn, bd)).2 ≠ 0 := by
  cases op with
  | add | sub | mul => exact mul_ne_zero ha hb
  | div => exact mul_ne_zero ha (divisor rfl)

/-- Numerators and denominators go as the quotients do. -/
lemma Binary.parts_value (op : Binary) (an bn : Int) {ad bd : Int} (ha : ad ≠ 0) (hb : bd ≠ 0) :
    ((op.parts (an, ad) (bn, bd)).1 / (op.parts (an, ad) (bn, bd)).2 : ℚ) =
      op.onValues (an / ad) (bn / bd) := by
  have ha : (ad : ℚ) ≠ 0 := Int.cast_ne_zero.mpr ha
  have hb : (bd : ℚ) ≠ 0 := Int.cast_ne_zero.mpr hb
  cases op with
  | add =>
    simp only [parts, onValues, Int.cast_add, Int.cast_mul]
    rw [div_add_div _ _ ha hb, mul_comm (bn : ℚ)]
  | sub =>
    simp only [parts, onValues, Int.cast_add, Int.cast_mul, Int.cast_neg]
    rw [div_sub_div _ _ ha hb, mul_comm (ad : ℚ) bn, neg_mul, sub_eq_add_neg]
  | mul =>
    simp only [parts, onValues, Int.cast_mul]
    rw [div_mul_div_comm]
  | div =>
    simp only [parts, onValues, Int.cast_mul]
    rw [div_div_div_eq]

/-- An operation on fractions stands for that on the numbers. -/
lemma Binary.apply_denotes {op : Binary} {a b f : Fraction} {p q : ℚ} (ha : a.Denotes p)
    (hb : b.Denotes q) (divisor : op = .div → b.numerator ≠ 0) (found : op.apply a b = .ok f) :
    f.Denotes (op.onValues p q) := by
  obtain ⟨ha, rfl⟩ := ha
  obtain ⟨hb, rfl⟩ := hb
  have ha := toInt_ne_zero.mpr ha
  have hb := toInt_ne_zero.mpr hb
  have parts := ((op.computes a b).of_ok found).1
  have exact := op.parts_value a.numerator.toInt b.numerator.toInt ha hb
  rw [value, value, ← exact]
  exact .of_parts parts (parts_ne_zero ha hb fun is => toInt_ne_zero.mpr (divisor is))

/-- A sum with an integer stands for that of the numbers. -/
lemma addInt_denotes {a f : Fraction} {n : Int32} {q : ℚ} (ha : a.Denotes q)
    (found : a.addInt n = .ok f) : f.Denotes (q + n.toInt) := by
  obtain ⟨ha, rfl⟩ := ha
  have ha := toInt_ne_zero.mpr ha
  have parts := ((addInt_computes a n).of_ok found).1
  have exact : a.value + n.toInt =
      ((a.parts.1 + n.toInt * a.parts.2 : Int) : ℚ) / (a.parts.2 : Int) := by
    rw [value, div_add' _ _ _ (Int.cast_ne_zero.mpr ha)]
    push_cast
    rfl
  rw [exact]
  exact .of_parts parts ha

/-- A result of two steps comes from a result of the first one. -/
lemma bind_eq_ok {α β : Type} {x : Outcome α} {k : α → Outcome β} {b : β}
    (found : x >>= k = .ok b) : ∃ a, x = .ok a ∧ k a = .ok b := by
  cases x with
  | error e => cases found
  | ok a => exact ⟨a, rfl, found⟩

/-- A result of a proper expression is its value. The induction follows the expression. -/
lemma Expression.eval_denotes {e : Expression} {f : Fraction} (proper : e.Proper)
    (found : e.eval = .ok f) : f.Denotes e.value := by
  induction e generalizing f with
  | fraction g =>
    cases found
    exact ⟨proper, rfl⟩
  | binary op a b iha ihb =>
    obtain ⟨pa, pb, divisor⟩ := proper
    obtain ⟨g, ga, found⟩ := bind_eq_ok found
    obtain ⟨h, hb, found⟩ := bind_eq_ok found
    exact Binary.apply_denotes (iha pa ga) (ihb pb hb) (fun is => divisor is h hb) found
  | addInt a n ih =>
    obtain ⟨g, ga, found⟩ := bind_eq_ok found
    exact addInt_denotes (ih proper ga) found
  | intAdd n a ih =>
    obtain ⟨g, ga, found⟩ := bind_eq_ok found
    rw [value, add_comm]
    exact addInt_denotes (ih proper ga) found

/-! ## Overflows -/

/-- The outcome of a row of steps is a failure just when one of them does not fit, and what fails
says of which operation the first such step is. -/
structure Overflows (steps : List Step) (outcome : Outcome Fraction) : Prop where
  iff : (∃ e, outcome = .error e) ↔ ∃ s ∈ steps, ¬ Fits s.exact
  first : ∀ e, outcome = .error e → ∃ front s rest cause,
    steps = front ++ s :: rest ∧ (∀ s ∈ front, Fits s.exact) ∧ ¬ Fits s.exact ∧
      e = .abort cause ∧ cause.message = "attempt to " ++ s.operation.name ++ " with overflow"

/-- A row of steps fails just where the first one does not fit. -/
lemma Computes.overflows {P : Fraction → Prop} {steps outcome} (cp : Computes P steps outcome) :
    Overflows steps outcome where
  iff := by
    constructor
    · rintro ⟨e, failed⟩
      obtain ⟨front, op, n, rest, rfl, _, large, _⟩ := cp.of_error failed
      exact ⟨⟨op, n⟩, by simp, large⟩
    · rintro ⟨s, mem, large⟩
      cases found : outcome with
      | error e => exact ⟨e, rfl⟩
      | ok f => exact absurd ((cp.of_ok found).2 s mem) large
  first e failed := by
    obtain ⟨front, op, n, rest, split, all, large, why⟩ := cp.of_error failed
    exact ⟨front, ⟨op, n⟩, rest, _, split, all, large, why, rfl⟩

/-- An expression over fractions that evaluates stands for its exact value, if no denominator and no
divisor in it is zero. An operation fails, on any operands, just when one of its steps overflows,
and its failure names the first one. -/
theorem eval_exact_or_overflow :
    (∀ (e : Expression) (f : Fraction), e.Proper → e.eval = .ok f →
        f.denominator ≠ 0 ∧ f.value = e.value) ∧
      (∀ (op : Binary) (a b : Fraction), Overflows (op.steps a.parts b.parts) (op.apply a b)) ∧
      ∀ (a : Fraction) (n : Int32), Overflows (addIntSteps a.parts n.toInt) (a.addInt n) ∧
        Overflows (addIntSteps a.parts n.toInt) (intAdd n a) := by
  refine ⟨?_, ?_, ?_⟩
  · intro e f proper found
    have denotes := Expression.eval_denotes proper found
    exact ⟨denotes.some, denotes.exact⟩
  · intro op a b
    exact (op.computes a b).overflows
  · intro a n
    have overflows := (addInt_computes a n).overflows
    exact ⟨overflows, overflows⟩

/-- A quotient of differences, in which nothing is reduced, and an opposite that does not fit. -/
theorem eval_exact_quotient :
    let half : Fraction := ⟨1, 2⟩
    let third : Fraction := ⟨1, 3⟩
    let e : Expression := .binary .div (.intAdd 1 (.binary .sub (.fraction half) (.fraction third)))
      (.addInt (.fraction third) (-1))
    let least : Fraction := ⟨-2147483648, 0⟩
    e.Proper ∧ e.eval = .ok ⟨21, -12⟩ ∧ e.value = -7 / 4 ∧
      ∃ failure, Binary.sub.apply half least = .error failure := by
  intro half third e least
  have twoThree : half.denominator ≠ 0 ∧ third.denominator ≠ 0 := by decide
  have proper : e.Proper := by
    refine ⟨⟨twoThree.1, twoThree.2, nofun⟩, twoThree.2, fun _ f found => ?_⟩
    cases found
    decide
  have found : e.eval = .ok ⟨21, -12⟩ := by decide
  have exact : e.value = (21 : Int) / (-12 : Int) :=
    (eval_exact_or_overflow.1 e _ proper found).2.symm
  have large : ¬ Checked.Fits (-least.numerator.toInt) := by decide
  refine ⟨proper, found, ?_, ?_⟩
  · rw [exact]
    norm_num
  · exact (eval_exact_or_overflow.2.1 .sub half least).iff.mpr ⟨_, List.mem_cons_self, large⟩

end Teletype.Fraction
