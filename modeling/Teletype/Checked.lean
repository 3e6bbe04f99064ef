/-!
# Checked arithmetic

Integers of 32 bits whose operations answer with the exact result or not at all.
-/

namespace Teletype.Checked

/-- An operation whose result may not fit. -/
inductive Operation
  | add
  | multiply
  | negate
  deriving DecidableEq, Repr

/-- The operation's verb. -/
def Operation.name : Operation → String
  | add => "add"
  | multiply => "multiply"
  | negate => "negate"

/-- The integer fits 32 bits with sign. -/
def Fits (n : Int) : Prop :=
  -0x80000000 ≤ n ∧ n < 0x80000000

instance (n : Int) : Decidable (Fits n) :=
  inferInstanceAs (Decidable (_ ∧ _))

/-- The 32-bit integer of the same value, if there is one. -/
def ofInt? (n : Int) : Option Int32 :=
  if Fits n then some (Int32.ofInt n) else none

/-- The exact result of an operation, or the operation itself when the result does not fit. -/
def result (op : Operation) (n : Int) : Except Operation Int32 :=
  match ofInt? n with
  | some m => .ok m
  | none => .error op

/-- The sum. -/
def add (a b : Int32) : Except Operation Int32 :=
  result .add (a.toInt + b.toInt)

/-- The product. -/
def multiply (a b : Int32) : Except Operation Int32 :=
  result .multiply (a.toInt * b.toInt)

/-- The opposite. -/
def negate (a : Int32) : Except Operation Int32 :=
  result .negate (-a.toInt)

/-- A result that fits has the exact value. -/
theorem toInt_of_ofInt? {n : Int} {m : Int32} (h : ofInt? n = some m) : m.toInt = n := by
  unfold ofInt? at h
  split at h
  case isTrue fits =>
    rw [← Option.some.inj h]
    exact Int32.toInt_ofInt_of_le fits.1 fits.2
  case isFalse => nomatch h

/-- Only what does not fit has no result. -/
theorem ofInt?_eq_none_iff {n : Int} : ofInt? n = none ↔ ¬ Fits n := by
  unfold ofInt?
  split <;> simp_all

end Teletype.Checked
