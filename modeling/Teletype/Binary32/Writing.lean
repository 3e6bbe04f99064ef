import Teletype.Binary32.Reading

/-!
# Writing floating-point literals

The decimal with the fewest digits that reads back as a given magnitude, and of those the nearest to
its exact value. Every value is a whole number of `10 ^ -149`, so all is done on naturals: the two
neighbours of the value on the grid of each digit count are tried, from one digit on.

The digits are laid out by the size of the number: near one with a point and zeros as needed,
elsewhere with an exponent.
-/

namespace Teletype.Binary32

/-! ## The shortest decimal -/

/-- The exact value of a magnitude in units of `10 ^ -149`. -/
def scaled (m : Nat) : Nat :=
  units m * Nat.pow 5 149

/-- The decimal that is `c` steps of `10 ^ zeros` units of `10 ^ -149`. -/
def onGrid (zeros c : Nat) : Decimal :=
  ⟨c, (zeros : Int) - 149⟩

/-- Of the two neighbours of `value` on the grid with `zeros` zeros, the nearer one that reads back
as `m`; halfway, the even one. -/
def neighbour? (m value zeros : Nat) : Option Decimal :=
  let step := Nat.pow 10 zeros
  let below := onGrid zeros (value / step)
  let above := onGrid zeros (value / step + 1)
  let twice := 2 * (value % step)
  let nearer := if twice < step ∨ twice = step ∧ value / step % 2 = 0 then below else above
  let farther := if nearer = below then above else below
  if ofDecimal nearer = m then some nearer
  else if ofDecimal farther = m then some farther
  else none

/-- The shortest decimal for the finite positive magnitude `m`. Nine digits always suffice. -/
def shortest (m : Nat) : Decimal :=
  let value := scaled m
  let digits := (Nat.toDigits 10 value).length
  let found := (List.range' 1 9).findSome? fun n => neighbour? m value (digits - n)
  found.getD ⟨value, -149⟩

/-! ## Layouts -/

/-- The decimal exponents `p`, for a value of `0.d₁d₂… * 10 ^ p`, that are written without an
exponent. -/
def isPlain (p : Int) : Prop :=
  -5 ≤ p ∧ p ≤ 13

instance (p : Int) : Decidable (isPlain p) :=
  inferInstanceAs (Decidable (_ ∧ _))

/-- `0.d₁d₂… * 10 ^ p` with a point and at least one digit on each side of it. -/
def plain (digits : List Char) (p : Int) : List Char :=
  if p ≤ 0 then ['0', '.'] ++ List.replicate (-p).toNat '0' ++ digits
  else if digits.length ≤ p.toNat then
    digits ++ List.replicate (p.toNat - digits.length) '0' ++ ['.', '0']
  else digits.take p.toNat ++ ['.'] ++ digits.drop p.toNat

/-- The text of an exponent: a minus sign when negative, no plus sign, no padding. -/
def exponent (e : Int) : List Char :=
  if e < 0 then '-' :: Nat.toDigits 10 e.natAbs else Nat.toDigits 10 e.natAbs

/-- `0.d₁d₂… * 10 ^ p` as `d₁.d₂…e(p - 1)`, without a point when there is one digit. -/
def scientific (digits : List Char) (p : Int) : List Char :=
  let point := if digits.length ≤ 1 then [] else ['.']
  digits.take 1 ++ point ++ digits.drop 1 ++ ['e'] ++ exponent (p - 1)

/-- A run of digits without the zeros at its end. -/
def withoutTrailingZeros (digits : List Char) : List Char :=
  (digits.reverse.dropWhile (· == '0')).reverse

/-- The text of a positive decimal. -/
def layout (d : Decimal) : List Char :=
  let all := Nat.toDigits 10 d.coefficient
  let digits := withoutTrailingZeros all
  let p := all.length + d.exponent
  if isPlain p then plain digits p else scientific digits p

/-- The text of a magnitude that is not a NaN. -/
def writeMagnitude (m : Nat) : List Char :=
  if m = infinity then ['i', 'n', 'f']
  else if m = 0 then ['0', '.', '0']
  else layout (shortest m)

/-- The text of a number. -/
def write (x : Binary32) : List Char :=
  if infinity < x.magnitude then ['N', 'a', 'N']
  else if x.isNegative then '-' :: writeMagnitude x.magnitude
  else writeMagnitude x.magnitude

end Teletype.Binary32
