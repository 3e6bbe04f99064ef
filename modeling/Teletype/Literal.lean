import Teletype.Checked

/-!
# Literals

Integers of 32 bits in decimal, and truth values. Writing puts a minus sign before a negative
integer and no leading zeros; reading takes either sign, any number of leading zeros, and only
values that fit. The words `true` and `false` are read in any ASCII letter case.
-/

namespace Teletype.Integer

/-- The decimal text of an integer. -/
def write (n : Int32) : List Char :=
  if n.toInt < 0 then '-' :: Nat.toDigits 10 n.toInt.natAbs
  else Nat.toDigits 10 n.toInt.natAbs

/-- The value after one more digit, while it fits; `sign` is 1 or -1. -/
def push (sign value : Int) (c : Char) : Option Int :=
  if c.isDigit then
    let next := 10 * value + sign * (c.toNat - '0'.toNat : Nat)
    if Checked.Fits next then some next else none
  else none

/-- The value of a non-empty run of digits. -/
def readDigits? (sign : Int) : List Char → Option Int32
  | [] => none
  | digits => (digits.foldlM (push sign) 0).map Int32.ofInt

/-- The integer that a text denotes. -/
def read? : List Char → Option Int32
  | '-' :: digits => readDigits? (-1) digits
  | '+' :: digits => readDigits? 1 digits
  | digits => readDigits? 1 digits

end Teletype.Integer

namespace Teletype.Boolean

/-- The word for a truth value. -/
def write (b : Bool) : List Char :=
  if b then ['t', 'r', 'u', 'e'] else ['f', 'a', 'l', 's', 'e']

/-- The truth value that a word denotes. -/
def read? (cs : List Char) : Option Bool :=
  let word := cs.map Char.toLower
  if word = write true then some true
  else if word = write false then some false
  else none

end Teletype.Boolean
