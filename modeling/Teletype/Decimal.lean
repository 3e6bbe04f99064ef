/-!
# Decimals

A natural coefficient times a power of ten, and the texts that denote one: digits with at most one
point, then perhaps an exponent.
-/

namespace Teletype

/-- The number `coefficient * 10 ^ exponent`. -/
structure Decimal where
  coefficient : Nat
  exponent : Int
  deriving DecidableEq, Repr

namespace Decimal

/-- The numerator of the number as a ratio of naturals. -/
def numerator (d : Decimal) : Nat :=
  d.coefficient * Nat.pow 10 d.exponent.toNat

/-- The denominator of the number as a ratio of naturals, a power of ten. -/
def denominator (d : Decimal) : Nat :=
  Nat.pow 10 (-d.exponent).toNat

/-- The denominator is a power of ten. -/
theorem denominator_pos (d : Decimal) : 0 < d.denominator :=
  Nat.pow_pos (by decide)

/-- The value of a run of digits, the first one weighing most. A long run is cut in half, so that
only few of the products are long. -/
def digitsValue (cs : List Char) : Nat :=
  if cs.length < 64 then Nat.ofDigitChars 10 cs 0
  else
    let front := cs.take (cs.length / 2)
    let back := cs.drop (cs.length / 2)
    digitsValue front * Nat.pow 10 back.length + digitsValue back
termination_by cs.length
decreasing_by all_goals simp only [List.length_take, List.length_drop]; omega

/-- Digits behind a value multiply it by a power of ten and add their own value. -/
theorem ofDigitChars_eq_add (cs : List Char) (start : Nat) :
    Nat.ofDigitChars 10 cs start = start * Nat.pow 10 cs.length + Nat.ofDigitChars 10 cs 0 := by
  induction cs generalizing start with
  | nil => simp [Nat.ofDigitChars]
  | cons c cs ih =>
    have power : Nat.pow 10 (c :: cs).length = Nat.pow 10 cs.length * 10 := rfl
    simp only [Nat.ofDigitChars, List.foldl_cons] at ih ⊢
    rw [ih (10 * start + _), ih (10 * 0 + _), power]
    simp only [Nat.mul_zero, Nat.zero_add, Nat.add_mul, Nat.mul_comm 10 start, Nat.mul_assoc,
      Nat.mul_comm 10 (Nat.pow 10 cs.length), Nat.add_assoc]

/-- Cutting a run of digits does not change its value. -/
theorem digitsValue_eq (cs : List Char) : digitsValue cs = Nat.ofDigitChars 10 cs 0 := by
  fun_induction digitsValue cs with
  | case1 => rfl
  | case2 cs _ front back ihFront ihBack =>
    rw [ihFront, ihBack, ← ofDigitChars_eq_add, ← Nat.ofDigitChars_append, List.take_append_drop]

/-- The exponent after one more digit. It stops growing once it is so large that no digit before
it could matter. -/
def pushExponent (value : Nat) (c : Char) : Nat :=
  if value < 0x10000 then 10 * value + (c.toNat - '0'.toNat) else value

/-- The value of a non-empty run of exponent digits. -/
def exponentDigits? (cs : List Char) : Option Nat :=
  if cs ≠ [] ∧ cs.all Char.isDigit then some (cs.foldl pushExponent 0) else none

/-- The exponent that a text after the exponent mark denotes. -/
def exponent? : List Char → Option Int
  | '-' :: cs => (exponentDigits? cs).map fun n => -(n : Int)
  | '+' :: cs => (exponentDigits? cs).map Int.ofNat
  | cs => (exponentDigits? cs).map Int.ofNat

/-- The digits after the point, if a point comes next, and what stands behind them. -/
def fraction : List Char → List Char × List Char
  | '.' :: cs => (cs.takeWhile Char.isDigit, cs.dropWhile Char.isDigit)
  | cs => ([], cs)

/-- The exponent at the end of a number: none at all, or a mark and an exponent. -/
def suffix? : List Char → Option Int
  | [] => some 0
  | c :: cs => if c = 'e' ∨ c = 'E' then exponent? cs else none

/-- The number that an unsigned text denotes. -/
def read? (cs : List Char) : Option Decimal :=
  let whole := cs.takeWhile Char.isDigit
  let (part, rest) := fraction (cs.dropWhile Char.isDigit)
  if whole ++ part = [] then none
  else
    (suffix? rest).map fun e => ⟨digitsValue (whole ++ part), e - part.length⟩

end Decimal

end Teletype
