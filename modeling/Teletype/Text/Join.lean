import Teletype.Text.Basic

/-!
# Joining and slicing texts

The characters of several texts in a row, with the counts added, and substrings by character
positions, whose counts follow from the positions.
-/

namespace Teletype.Text

/-! ## Joining -/

/-- One text behind another. -/
def append (a b : Text) : Text :=
  ofParts [a.bytes, b.bytes] (a.length + b.length)

instance : Append Text := ⟨append⟩

instance : Add Text := ⟨append⟩

/-- The characters of some strings, one behind another. -/
def join (parts : List String) : Text :=
  let runs := parts.map fun s => Utf8.encode s.toList
  ofParts runs (runs.foldr (fun bs n => countChars bs + n) 0)

/-! ## Slicing -/

/-- The bytes between two offsets, which must be boundaries of characters. -/
def slice (t : Text) (first last : Nat) : Outcome (List UInt8) :=
  match Utf8.slice? t.bytes first last with
  | some bs => .ok bs
  | none => .error (.abort (.misplaced first))

/-- The offset of the byte at which a character position is. -/
def byteOffset (t : Text) (position : Nat) : Nat :=
  if t.isAscii then position else Utf8.offset position t.bytes

/-- The characters from `start` on. -/
def substring (t : Text) (start : Int32) : Outcome Text :=
  let s := start.toInt
  if s < 0 ∨ (t.length : Int) < s then .error (.error (.outOfRange s t.length))
  else do
    let rest ← t.slice (t.byteOffset s.toNat) t.bytes.length
    return ofBytes rest (t.length - s.toNat)

/-- Exactly `len` characters from `start` on. -/
def substringLen (t : Text) (start len : Int32) : Outcome Text :=
  let s := start.toInt
  let n := len.toInt
  if s < 0 then .error (.error (.outOfRange s t.length))
  else if n < 0 then .error (.error (.negativeLength len))
  -- the end may lie beyond 32 bits, and is reported as it is
  else if (t.length : Int) < s + n then .error (.error (.outOfRange (s + n) t.length))
  else do
    let first := t.byteOffset s.toNat
    let rest ← t.slice first t.bytes.length
    let part ← t.slice first (first + Utf8.offset n.toNat rest)
    return ofBytes part n.toNat

end Teletype.Text
