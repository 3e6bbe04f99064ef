import Teletype.Text.Join

/-!
# Searching texts

The first position of a text or a character in another text. The search runs over bytes, and the
byte offset found is turned into a character position.
-/

namespace Teletype.Text

/-- The offset at which some bytes first occur. -/
def find? (needle : List UInt8) : List UInt8 → Option Nat
  | [] => if needle.isEmpty then some 0 else none
  | b :: bs =>
    if needle.isPrefixOf (b :: bs) then some 0
    else (find? needle bs).map (· + 1)

/-- The offset of the first occurrence of a character. -/
def findChar? (c : Char) : List Char → Option Nat
  | [] => none
  | d :: ds => if d = c then some 0 else (findChar? c ds).map (· + d.utf8Size)

/-- The number of characters in front of an offset. -/
def charIndex (t : Text) (offset : Nat) : Outcome Nat :=
  if t.isAscii then .ok offset
  else do
    let front ← t.slice 0 offset
    return Utf8.count front

/-- A position as a 32-bit integer. Positions beyond the greatest one become that one, so that
something found never looks like something absent. -/
def toIndex (position : Nat) : Int32 :=
  if position < 0x80000000 then Int32.ofNat position else Int32.ofNat 0x7FFFFFFF

/-- The character position of an offset, or -1 if there is none. -/
def position (t : Text) : Option Nat → Outcome Int32
  | some offset => do
    let index ← t.charIndex offset
    return toIndex index
  | none => .ok (-1)

/-- The position at which `needle` first occurs, or -1. The empty text occurs at 0. -/
def indexOf (t needle : Text) : Outcome Int32 :=
  t.position (find? needle.bytes t.bytes)

/-- The position at which a character first occurs, or -1. -/
def indexOfChar (t : Text) (c : Char) : Outcome Int32 :=
  t.position (findChar? c t.toList)

end Teletype.Text
