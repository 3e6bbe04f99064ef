/-!
# UTF-8

Bytes of characters, and characters of bytes. `followers` is the table of well-formed sequences:
what may come after each lead byte. A run of bytes falls into segments, each a whole character or
the longest beginning of one that cannot be completed, and both ways to decode are read off the
segments: `decode?` refuses an incomplete one, `decodeReplacing` puts U+FFFD in its place.
-/

namespace Teletype.Utf8

/-- The bytes of some characters. -/
def encode (cs : List Char) : List UInt8 :=
  cs.flatMap String.utf8EncodeChar

/-- Characters are encoded one after another. -/
@[simp] theorem encode_append (cs ds : List Char) : encode (cs ++ ds) = encode cs ++ encode ds :=
  List.flatMap_append

/-- The bytes between two bounds. -/
structure ByteRange where
  low : Nat
  high : Nat

/-- The byte is in the range. -/
def ByteRange.contains (r : ByteRange) (b : UInt8) : Bool :=
  decide (r.low ≤ b.toNat ∧ b.toNat ≤ r.high)

/-- The bytes that go on with a character. -/
def ByteRange.continuation : ByteRange := ⟨0x80, 0xBF⟩

/-- A byte that goes on with a character and never starts one. -/
def isContinuation (b : UInt8) : Bool :=
  ByteRange.continuation.contains b

/-- What must follow a lead byte in a well-formed sequence, or `none` when the byte starts none.
The narrowed second ranges shut out overlong forms, surrogates and values above U+10FFFF. -/
def followers (lead : UInt8) : Option (List ByteRange) :=
  let n := lead.toNat
  if n < 0x80 then some []
  else if n < 0xC2 then none
  else if n < 0xE0 then some [.continuation]
  else if n = 0xE0 then some [⟨0xA0, 0xBF⟩, .continuation]
  else if n = 0xED then some [⟨0x80, 0x9F⟩, .continuation]
  else if n < 0xF0 then some [.continuation, .continuation]
  else if n = 0xF0 then some [⟨0x90, 0xBF⟩, .continuation, .continuation]
  else if n < 0xF4 then some [.continuation, .continuation, .continuation]
  else if n = 0xF4 then some [⟨0x80, 0x8F⟩, .continuation, .continuation]
  else none

/-- The number of bytes of the sequences that a lead byte starts. -/
def width? (lead : UInt8) : Option Nat :=
  (followers lead).map (·.length + 1)

/-- How many bytes at the front lie in the ranges, one range for each byte. -/
def matched : List ByteRange → List UInt8 → Nat
  | r :: rs, b :: bs => if r.contains b then matched rs bs + 1 else 0
  | _, _ => 0

/-- The scalar value that a lead byte and its followers stand for. -/
def scalar (lead : UInt8) : List UInt8 → Nat
  | [] => lead.toNat
  | [b] => lead.toNat % 32 * 64 + b.toNat % 64
  | [b, c] => (lead.toNat % 16 * 64 + b.toNat % 64) * 64 + c.toNat % 64
  | b :: c :: d :: _ =>
    ((lead.toNat % 8 * 64 + b.toNat % 64) * 64 + c.toNat % 64) * 64 + d.toNat % 64

/-- The character that starts at `lead`, when all its bytes are there. -/
def character? (lead : UInt8) (rest : List UInt8) : Option Char :=
  match followers lead with
  | none => none
  | some ranges =>
    if matched ranges rest = ranges.length then
      some (Char.ofNat (scalar lead (rest.take ranges.length)))
    else none

/-- The number of bytes after `lead` that belong to its segment. -/
def reach (lead : UInt8) (rest : List UInt8) : Nat :=
  match followers lead with
  | none => 0
  | some ranges => matched ranges rest

/-- The segments in order: whole characters, and `none` for each malformed one. -/
def segments : List UInt8 → List (Option Char)
  | [] => []
  | lead :: rest => character? lead rest :: segments (rest.drop (reach lead rest))
termination_by bs => bs.length
decreasing_by simp only [List.length_drop, List.length_cons]; omega

/-- The characters of some bytes, if these are nothing else. -/
def decode? (bs : List UInt8) : Option (List Char) :=
  (segments bs).mapM id

/-- The characters of any bytes, U+FFFD for each malformed segment. -/
def decodeReplacing (bs : List UInt8) : List Char :=
  (segments bs).map fun c => c.getD '\uFFFD'

end Teletype.Utf8
