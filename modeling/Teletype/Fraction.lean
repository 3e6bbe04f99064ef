import Teletype.Failure

/-!
# Fractions

Pairs of 32-bit integers with the arithmetic of fractions. Nothing is ever reduced, and an
operation aborts at the first intermediate result that does not fit.
-/

namespace Teletype

/-- A numerator over a denominator, which may be zero. -/
structure Fraction where
  numerator : Int32 := 0
  denominator : Int32 := 0
  deriving DecidableEq, Repr

namespace Fraction

/-- A checked result as an outcome. -/
def checked (result : Except Checked.Operation Int32) : Outcome Int32 :=
  result.mapError fun op => .abort (.overflow op)

/-- The fraction with another numerator. -/
def setNumerator (f : Fraction) (n : Int32) : Fraction :=
  { f with numerator := n }

/-- The fraction with another denominator. -/
def setDenominator (f : Fraction) (d : Int32) : Fraction :=
  { f with denominator := d }

/-- With both parts set nothing is left of the fraction before. -/
@[simp] theorem setNumerator_setDenominator (f : Fraction) (n d : Int32) :
    (f.setNumerator n).setDenominator d = ⟨n, d⟩ :=
  rfl

/-- The sum, over the product of the denominators. -/
def add (a b : Fraction) : Outcome Fraction := do
  let left ← checked (Checked.multiply a.numerator b.denominator)
  let right ← checked (Checked.multiply b.numerator a.denominator)
  let numerator ← checked (Checked.add left right)
  let denominator ← checked (Checked.multiply a.denominator b.denominator)
  return (a.setNumerator numerator).setDenominator denominator

/-- The difference: the sum with the opposite. -/
def sub (a b : Fraction) : Outcome Fraction := do
  let opposite ← checked (Checked.negate b.numerator)
  a.add (b.setNumerator opposite)

/-- The product. -/
def mul (a b : Fraction) : Outcome Fraction := do
  let numerator ← checked (Checked.multiply a.numerator b.numerator)
  let denominator ← checked (Checked.multiply a.denominator b.denominator)
  return (a.setNumerator numerator).setDenominator denominator

/-- The quotient, by multiplying crosswise. -/
def div (a b : Fraction) : Outcome Fraction := do
  let numerator ← checked (Checked.multiply a.numerator b.denominator)
  let denominator ← checked (Checked.multiply a.denominator b.numerator)
  return (b.setNumerator numerator).setDenominator denominator

/-- The sum with a whole number. -/
def addInt (a : Fraction) (n : Int32) : Outcome Fraction := do
  let whole ← checked (Checked.multiply n a.denominator)
  let numerator ← checked (Checked.add a.numerator whole)
  return a.setNumerator numerator

/-- The sum of a whole number and a fraction. -/
def intAdd (n : Int32) (a : Fraction) : Outcome Fraction :=
  a.addInt n

end Fraction

end Teletype
