import Teletype.Utf8.Basic

/-!
# Positions in UTF-8

Counting characters without decoding them: in well-formed bytes a character starts at each byte
that is not a continuation byte.
-/

namespace Teletype.Utf8

/-- The number of characters that start in some bytes. -/
def count (bs : List UInt8) : Nat :=
  bs.countP fun b => !isContinuation b

/-- Characters are counted in one part after another. -/
@[simp] theorem count_append (bs cs : List UInt8) : count (bs ++ cs) = count bs + count cs :=
  List.countP_append

/-- The offset of the byte at which character number `n` starts, or the length if there are no
more than `n` characters. -/
def offset : Nat → List UInt8 → Nat
  | _, [] => 0
  | n, b :: bs =>
    if isContinuation b then offset n bs + 1
    else
      match n with
      | 0 => 0
      | n + 1 => offset n bs + 1

/-- A character starts at the offset, or the bytes end there. -/
def isBoundary (bs : List UInt8) (i : Nat) : Bool :=
  match bs.drop i with
  | [] => i == bs.length
  | b :: _ => i == 0 || !isContinuation b

/-- The bytes from one boundary up to a later one. -/
def slice? (bs : List UInt8) (first last : Nat) : Option (List UInt8) :=
  if first ≤ last ∧ isBoundary bs first ∧ isBoundary bs last then
    some ((bs.drop first).take (last - first))
  else none

end Teletype.Utf8
