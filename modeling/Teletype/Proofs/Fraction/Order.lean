import Mathlib
import Teletype.Proofs.Fraction.Exact
import Teletype.Proofs.Literal.Integer

/-!
# Order of operands

Nothing is reduced, so the order in which fractions are put together could show in the parts of the
result. It does not: `Grouping.parts_of_eval` reads the parts of any sum or product off the list of
its fractions, by a fold that no permutation changes. Which intermediate results fit does depend on
the order. Only two operands can be exchanged with all that comes of it, overflows included.
-/

namespace Teletype.Fraction

/-- The operations whose operands may change places. -/
inductive Binary.IsSymmetric : Binary → Prop where
  | add :
    Binary.IsSymmetric .add
  | mul :
    Binary.IsSymmetric .mul

/-- The parts that leave those before them as they are. -/
def Binary.neutral : Binary → Int × Int
  | add | sub => (0, 1)
  | mul | div => (1, 1)

namespace Binary

variable {op : Binary}

/-- The neutral parts on the right change nothing. -/
lemma parts_neutral (op : Binary) (p : Int × Int) : op.parts p op.neutral = p := by
  cases op <;> simp [parts, neutral]

/-- Sums and products of parts do not depend on the order. -/
lemma IsSymmetric.commutative (sym : op.IsSymmetric) : Std.Commutative op.parts where
  comm p q := by
    cases sym with
    | add => exact Prod.ext (add_comm _ _) (mul_comm _ _)
    | mul => exact Prod.ext (mul_comm _ _) (mul_comm _ _)

/-- Sums and products of parts do not depend on the parentheses. -/
lemma IsSymmetric.associative (sym : op.IsSymmetric) : Std.Associative op.parts where
  assoc p q r := by
    cases sym with
    | add =>
      refine Prod.ext ?_ (mul_assoc _ _ _)
      simp only [parts]
      ring
    | mul => exact Prod.ext (mul_assoc _ _ _) (mul_assoc _ _ _)

end Binary

/-- Fractions with the same parts are the same. -/
lemma parts_inj {f g : Fraction} (same : f.parts = g.parts) : f = g := by
  obtain ⟨numerator, denominator⟩ := Prod.mk.inj same
  cases f
  cases g
  exact congrArg₂ mk (Int32.toInt_inj.mp numerator) (Int32.toInt_inj.mp denominator)

/-! ## Groupings -/

/-- Fractions put together in pairs, all by one operation. -/
inductive Grouping
  | single (f : Fraction)
  | pair (a b : Grouping)
  deriving DecidableEq, Repr

namespace Grouping

/-- The fractions from left to right. -/
def fractions : Grouping → List Fraction
  | single f => [f]
  | pair a b => a.fractions ++ b.fractions

/-- The grouping as an expression with one operation. -/
def expression (op : Binary) : Grouping → Expression
  | single f => .fraction f
  | pair a b => .binary op (a.expression op) (b.expression op)

/-- Parentheses do not show in a result: its parts are those of all the fractions together. -/
lemma parts_of_eval {op : Binary} (sym : op.IsSymmetric) {g : Grouping} {f : Fraction}
    (found : (g.expression op).eval = .ok f) :
    f.parts = (g.fractions.map parts).foldr op.parts op.neutral := by
  have := sym.associative
  induction g generalizing f with
  | single g =>
    cases found
    exact (op.parts_neutral g.parts).symm
  | pair a b iha ihb =>
    obtain ⟨x, ha, found⟩ := bind_eq_ok found
    obtain ⟨y, hb, found⟩ := bind_eq_ok found
    calc f.parts = op.parts x.parts y.parts := ((op.computes x y).of_ok found).1
      _ = op.parts ((a.fractions.map parts).foldr op.parts op.neutral) y.parts := by rw [iha ha]
      _ = (a.fractions.map parts).foldr op.parts (op.parts op.neutral y.parts) :=
        List.foldr_assoc.symm
      _ = (a.fractions.map parts).foldr op.parts y.parts := by
        rw [sym.commutative.comm, op.parts_neutral]
      _ = ((a.pair b).fractions.map parts).foldr op.parts op.neutral := by
        rw [ihb hb, fractions, List.map_append, List.foldr_append]

end Grouping

/-! ## Two operands -/

/-- The factors of a checked product may change places, whether it overflows or not. -/
lemma multiply_comm (m n : Int32) : Checked.multiply m n = Checked.multiply n m := by
  rw [Checked.multiply, Checked.multiply, mul_comm]

/-- The terms of a checked sum may change places, whether it overflows or not. -/
lemma checked_add_comm (m n : Int32) : Checked.add m n = Checked.add n m := by
  rw [Checked.add, Checked.add, add_comm]

/-- A product that does not fit says no more than that it was one. -/
lemma multiply_error {m n : Int32} {op : Checked.Operation}
    (large : Checked.multiply m n = .error op) : op = .multiply := by
  unfold Checked.multiply Checked.result at large
  split at large
  · cases large
  · exact (Except.error.inj large).symm

/-- A factor of one does not overflow. -/
lemma multiply_one (n : Int32) : Checked.multiply n 1 = .ok n := by
  obtain ⟨m, found, exact⟩ := Checked.result_of_fits .multiply (Integer.fits_toInt n)
  have same : n.toInt * (1 : Int32).toInt = n.toInt := mul_one _
  rw [Checked.multiply, same, found, Int32.toInt_inj.mp exact]

/-- The cross products change places: whichever is computed first, they overflow alike. -/
lemma add_swap (a b : Fraction) : a.add b = b.add a := by
  unfold add
  simp only [setNumerator_setDenominator]
  rw [multiply_comm b.denominator]
  -- either product may be the first to overflow, and the failure does not tell which it was
  cases left : Checked.multiply a.numerator b.denominator with
  | error op =>
    cases right : Checked.multiply b.numerator a.denominator with
    | error op' =>
      rw [multiply_error left, multiply_error right]
    | ok r =>
      rfl
  | ok l =>
    cases right : Checked.multiply b.numerator a.denominator with
    | error op => rfl
    | ok r =>
      show checked (Checked.add l r) >>= _ = checked (Checked.add r l) >>= _
      rw [checked_add_comm]

/-- Fractions may change places in a product, whether it overflows or not. -/
lemma mul_swap (a b : Fraction) : a.mul b = b.mul a := by
  unfold mul
  simp only [setNumerator_setDenominator]
  rw [multiply_comm a.numerator, multiply_comm a.denominator]

/-- An integer is added as a fraction over one. -/
lemma addInt_eq_add (a : Fraction) (n : Int32) : a.addInt n = a.add ⟨n, 1⟩ := by
  unfold addInt add
  rw [multiply_one, multiply_one]
  rfl

/-- Two sums of the same fractions, or two products, in any order and with any parentheses, have the
same parts if both evaluate. With two operands they also overflow alike, and a whole number is added
as the fraction over one that it is. -/
theorem eval_order_free :
    (∀ (op : Binary) (a b : Grouping) (f g : Fraction), op.IsSymmetric →
        a.fractions.Perm b.fractions →
        (a.expression op).eval = .ok f → (b.expression op).eval = .ok g → f = g) ∧
      (∀ a b : Fraction, a.add b = b.add a ∧ a.mul b = b.mul a) ∧
      ∀ (a : Fraction) (n : Int32), a.addInt n = a.add ⟨n, 1⟩ := by
  refine ⟨?_, fun a b => ⟨add_swap a b, mul_swap a b⟩, addInt_eq_add⟩
  intro op a b f g sym perm ha hb
  have := sym.commutative
  have := sym.associative
  apply parts_inj
  rw [Grouping.parts_of_eval sym ha, Grouping.parts_of_eval sym hb]
  exact (perm.map parts).foldr_eq op.neutral

/-- Three fractions, one of them over zero, added up from the left and in another order from the
right. -/
theorem eval_order_free_over_zero :
    let a : Grouping := .pair (.pair (.single ⟨1, 2⟩) (.single ⟨1, 3⟩)) (.single ⟨4, 0⟩)
    let b : Grouping := .pair (.single ⟨4, 0⟩) (.pair (.single ⟨1, 3⟩) (.single ⟨1, 2⟩))
    a.fractions.Perm b.fractions ∧ (a.expression .add).eval = .ok ⟨24, 0⟩ ∧
      (b.expression .add).eval = .ok ⟨24, 0⟩ := by
  intro a b
  have perm : a.fractions.Perm b.fractions := by decide
  have ha : (a.expression .add).eval = .ok ⟨24, 0⟩ := by decide
  obtain ⟨g, hb⟩ : ∃ g, (b.expression .add).eval = .ok g := ⟨_, rfl⟩
  have same := eval_order_free.1 .add a b _ g .add perm ha hb
  rw [← same] at hb
  exact ⟨perm, ha, hb⟩

end Teletype.Fraction
