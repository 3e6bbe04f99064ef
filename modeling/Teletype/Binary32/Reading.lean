import Teletype.Binary32.Basic
import Teletype.Decimal

/-!
# Reading floating-point literals

A sign, then a decimal or one of the words for infinity and NaN. A decimal gives the number nearest
to its exact value, ties to the even one, and the sign counts for zeros and NaNs too.

A ratio of naturals reaches a magnitude when it is not below the midpoint between that magnitude and
the one before it; the nearest magnitude is the greatest one reached.
-/

namespace Teletype.Binary32

/-! ## Rounding to nearest -/

/-- The ratio is at least the midpoint below magnitude `m`; at the midpoint itself only an even `m`
is reached. -/
def reaches (numerator denominator : Nat) : Nat → Bool
  | 0 => true
  | m + 1 =>
    let middle := denominator * (units m + units (m + 1))
    let value := numerator * Nat.pow 2 150
    if (m + 1) % 2 = 0 then decide (middle ≤ value) else decide (middle < value)

/-- Sets bits from number `k - 1` down to 0 wherever the result is at most infinity and satisfies
`p`. -/
def climb (p : Nat → Bool) : Nat → Nat → Nat
  | 0, m => m
  | k + 1, m =>
    let next := m + Nat.pow 2 k
    if next ≤ infinity ∧ p next then climb p k next else climb p k m

/-- The magnitude nearest to `numerator / denominator`. -/
def nearest (numerator denominator : Nat) : Nat :=
  climb (reaches numerator denominator) 31 0

/-! ## Literals -/

/-- The magnitude nearest to a decimal. -/
def ofDecimal (d : Decimal) : Nat :=
  nearest d.numerator d.denominator

/-- The magnitude that a word denotes, in any ASCII letter case. -/
def ofWord? (cs : List Char) : Option Nat :=
  let word := cs.map Char.toLower
  if word = ['i', 'n', 'f'] ∨ word = ['i', 'n', 'f', 'i', 'n', 'i', 't', 'y'] then some infinity
  else if word = ['n', 'a', 'n'] then some quietNaN
  else none

/-- The magnitude that an unsigned text denotes. -/
def magnitude? (cs : List Char) : Option Nat :=
  match Decimal.read? cs with
  | some d => some (ofDecimal d)
  | none => ofWord? cs

/-- The number that a text denotes. -/
def read? : List Char → Option Binary32
  | '-' :: cs => (magnitude? cs).map (ofMagnitude true)
  | '+' :: cs => (magnitude? cs).map (ofMagnitude false)
  | cs => (magnitude? cs).map (ofMagnitude false)

end Teletype.Binary32
