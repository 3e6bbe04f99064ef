/-!
# Binary floating point of 32 bits

A sign bit, eight exponent bits and 23 fraction bits. The 31 bits under the sign, read as a number,
are the magnitude: magnitudes are in the order of the values they stand for, and `units` gives that
value exactly, as a multiple of the least positive one, `2 ^ -149`.
-/

namespace Teletype

/-- A floating-point number, by its bits. -/
structure Binary32 where
  bits : UInt32
  deriving DecidableEq, Repr

namespace Binary32

/-- The sign bit is set. -/
def isNegative (x : Binary32) : Bool :=
  decide (0x80000000 ≤ x.bits.toNat)

/-- The bits under the sign. -/
def magnitude (x : Binary32) : Nat :=
  x.bits.toNat % 0x80000000

/-- The number with the given sign and magnitude. -/
def ofMagnitude (negative : Bool) (m : Nat) : Binary32 :=
  ⟨UInt32.ofNat (if negative then 0x80000000 + m else m)⟩

/-- The magnitude of infinity; the finite ones lie below it and NaNs above. -/
def infinity : Nat := 0x7F800000

/-- The magnitude of the NaN that reading gives. -/
def quietNaN : Nat := 0x7FC00000

/-- The value of a finite magnitude in units of `2 ^ -149`. Above the subnormal ones the 23 fraction
bits get a leading one. At infinity it goes on with what would be the next value. -/
def units (m : Nat) : Nat :=
  if m < 0x800000 then m
  else (0x800000 + m % 0x800000) * Nat.pow 2 (m / 0x800000 - 1)

end Binary32

end Teletype
