import Teletype.Failure
import Teletype.Utf8.Position

/-!
# Texts

Immutable text with its character count beside it. Up to 22 bytes stand in a buffer inside the
text, more in a shared run of bytes. The count is taken when a text is made from a string and
afterwards only added and subtracted, never taken again.
-/

namespace Teletype

/-- The number of bytes that fit inside a text. -/
abbrev Storage.capacity : Nat := 22

/-- Where the bytes of a text are. -/
inductive Storage
  /-- the first `size` bytes of a buffer inside the text -/
  | inline (size : Nat) (buffer : Vector UInt8 Storage.capacity)
  /-- a run of bytes of any length -/
  | shared (bytes : List UInt8)
  deriving DecidableEq

namespace Storage

/-- A buffer of zeros. -/
def blank : Vector UInt8 capacity :=
  Vector.replicate capacity 0

/-- The buffer with `bs` copied over the bytes from `position` on. -/
def copy (buffer : Vector UInt8 capacity) (position : Nat) (bs : List UInt8)
    (fits : position + bs.length ≤ capacity) : Vector UInt8 capacity :=
  ⟨(buffer.toList.take position ++ bs ++ buffer.toList.drop (position + bs.length)).toArray, by
    simp only [List.size_toArray, List.length_append, List.length_take, List.length_drop,
      Vector.length_toList]
    omega⟩

/-- The number of bytes in all parts together. -/
def total : List (List UInt8) → Nat
  | [] => 0
  | bs :: parts => bs.length + total parts

/-- The total is the length of the parts put together. -/
theorem total_eq (parts : List (List UInt8)) : total parts = parts.flatten.length := by
  induction parts with
  | nil => rfl
  | cons bs parts ih => rw [total, ih, List.flatten_cons, List.length_append]

/-- The buffer with the parts copied one behind another, the first of them to `position`. -/
def copyAll (buffer : Vector UInt8 capacity) (position : Nat) : (parts : List (List UInt8)) →
    position + total parts ≤ capacity → Vector UInt8 capacity
  | [], _ => buffer
  | bs :: parts, fits =>
    have fits : position + bs.length + total parts ≤ capacity := by
      rwa [total, ← Nat.add_assoc] at fits
    copyAll (copy buffer position bs (Nat.le_trans (Nat.le_add_right ..) fits))
      (position + bs.length) parts fits

/-- Bytes in their place: the front of the buffer when they fit. -/
def ofBytes (bs : List UInt8) : Storage :=
  if h : bs.length ≤ capacity then .inline bs.length (copy blank 0 bs (by rwa [Nat.zero_add]))
  else .shared bs

/-- Several runs of bytes, one behind another, in the place of all of them. -/
def ofParts (parts : List (List UInt8)) : Storage :=
  if h : total parts ≤ capacity then
    .inline (total parts) (copyAll blank 0 parts (by rwa [Nat.zero_add]))
  else .shared parts.flatten

/-- The bytes of a text, wherever they are. -/
def bytes : Storage → List UInt8
  | inline size buffer => buffer.toList.take size
  | shared bytes => bytes

/-- The bytes are inside the text. -/
def isInline : Storage → Bool
  | inline .. => true
  | shared _ => false

/-- Copying leaves the bytes in front and behind as they are. -/
@[simp] theorem toList_copy (buffer : Vector UInt8 capacity) (position : Nat) (bs : List UInt8)
    (fits : position + bs.length ≤ capacity) : (copy buffer position bs fits).toList =
      buffer.toList.take position ++ bs ++ buffer.toList.drop (position + bs.length) :=
  rfl

/-- Two runs copied one behind the other are copied as one. -/
theorem copy_copy (buffer : Vector UInt8 capacity) (position : Nat) (bs cs : List UInt8)
    (fits : position + (bs ++ cs).length ≤ capacity)
    (fits₁ : position + bs.length ≤ capacity)
    (fits₂ : position + bs.length + cs.length ≤ capacity) :
    copy (copy buffer position bs fits₁) (position + bs.length) cs fits₂ =
      copy buffer position (bs ++ cs) fits := by
  have front : (buffer.toList.take position ++ bs).length = position + bs.length := by
    rw [List.length_append, List.length_take, Vector.length_toList]
    omega
  apply Vector.toList_inj.mp
  simp only [toList_copy]
  rw [List.take_left' front, ← List.drop_drop, List.drop_left' front, List.drop_drop,
    List.length_append, Nat.add_assoc, List.append_assoc _ bs cs]

/-- Parts are copied as all of them put together. -/
theorem copyAll_eq_copy (buffer : Vector UInt8 capacity) (position : Nat)
    (parts : List (List UInt8)) (fits : position + total parts ≤ capacity) :
    copyAll buffer position parts fits =
      copy buffer position parts.flatten (by rwa [← total_eq]) := by
  induction parts generalizing buffer position with
  | nil =>
    apply Vector.toList_inj.mp
    simp [copyAll]
  | cons bs parts ih => rw [copyAll, ih, copy_copy]; rfl

/-- Bytes are found where they were put. -/
@[simp] theorem bytes_ofBytes (bs : List UInt8) : (ofBytes bs).bytes = bs := by
  unfold ofBytes
  split <;> simp [bytes]

/-- Parts are stored as all of them put together. -/
theorem ofParts_eq (parts : List (List UInt8)) : ofParts parts = ofBytes parts.flatten := by
  simp only [ofParts, ofBytes, copyAll_eq_copy, total_eq]

/-- Bytes are inside just when they fit. -/
theorem isInline_ofBytes (bs : List UInt8) :
    (ofBytes bs).isInline = decide (bs.length ≤ capacity) := by
  unfold ofBytes
  split <;> simp_all [isInline]

end Storage

/-- Bytes of characters, with the number of characters beside them. -/
structure Text where
  storage : Storage
  length : Nat

namespace Text

/-- The bytes of a text. -/
def bytes (t : Text) : List UInt8 :=
  t.storage.bytes

/-- The text of bytes, whose characters have been counted. -/
def ofBytes (bs : List UInt8) (length : Nat) : Text :=
  ⟨.ofBytes bs, length⟩

/-- The text of parts, whose characters have been counted. -/
def ofParts (parts : List (List UInt8)) (length : Nat) : Text :=
  ⟨.ofParts parts, length⟩

/-- The text of no characters. -/
def empty : Text :=
  ofBytes [] 0

/-- The number of characters that the bytes of a string stand for. Single bytes need no second
look. -/
def countChars (bs : List UInt8) : Nat :=
  if bs.all (· < 0x80) then bs.length else Utf8.count bs

/-- The text of a string, with its characters counted. -/
def ofString (s : String) : Text :=
  let bs := Utf8.encode s.toList
  ofBytes bs (countChars bs)

/-- The text of a string given away for it. More than the buffer holds is taken as it is. -/
def ofOwned (s : String) : Text :=
  let bs := Utf8.encode s.toList
  let length := countChars bs
  if bs.length ≤ Storage.capacity then ofBytes bs length else ⟨.shared bs, length⟩

/-- The text of one character. -/
def ofChar (c : Char) : Text :=
  ofBytes (Utf8.encode [c]) 1

instance : Inhabited Text := ⟨empty⟩

instance : Coe String Text := ⟨ofString⟩

/-- The characters of a text. -/
def toList (t : Text) : List Char :=
  (Utf8.decode? t.bytes).getD []

instance : ToString Text := ⟨fun t => String.ofList t.toList⟩

/-- The text on one line between quotes. -/
def quoted (t : Text) : String :=
  String.ofList (Quoted.write t.toList)

/-- There are no characters. -/
def isEmpty (t : Text) : Bool :=
  t.length == 0

/-- Every character is a single byte, so that characters and bytes have the same positions. -/
def isAscii (t : Text) : Bool :=
  t.length == t.bytes.length

/-- The same characters: the counts are compared first, then the bytes. -/
def equal (a b : Text) : Bool :=
  a.length == b.length && a.bytes == b.bytes

instance : BEq Text := ⟨equal⟩

/-- The same bytes as those of a string. -/
def equalsString (t : Text) (s : String) : Bool :=
  t.bytes == Utf8.encode s.toList

/-- What a hasher is fed for bytes of text: the bytes, and an end mark that no text contains. -/
def hashInputOf (bs : List UInt8) : List UInt8 :=
  bs ++ [0xFF]

/-- What a hasher is fed for a text. -/
def hashInput (t : Text) : List UInt8 :=
  hashInputOf t.bytes

instance : Hashable Text := ⟨fun t => hash t.hashInput⟩

/-- The byte of the given number as a character: the character there when the text is ASCII. -/
def byteAt? (t : Text) (i : Nat) : Option Char :=
  t.bytes[i]?.map fun b => Char.ofNat b.toNat

/-- Character number `index`. An ASCII text need not be decoded for it. -/
def charAt (t : Text) (index : Int32) : Outcome Char :=
  let i := index.toInt
  if i < 0 ∨ (t.length : Int) ≤ i then .error (.error (.outOfRange i t.length))
  else if t.isAscii then
    match t.byteAt? i.toNat with
    | some c => .ok c
    | none => .error (.abort (.misplaced i.toNat))
  else
    match t.toList[i.toNat]? with
    | some c => .ok c
    | none => .error (.error (.outOfRange i t.length))

/-- A text has the bytes it was made of. -/
@[simp] theorem bytes_ofBytes (bs : List UInt8) (n : Nat) : (ofBytes bs n).bytes = bs :=
  Storage.bytes_ofBytes bs

/-- A text has the count it was made with. -/
@[simp] theorem length_ofBytes (bs : List UInt8) (n : Nat) : (ofBytes bs n).length = n :=
  rfl

/-- A text of parts is the text of all of them put together. -/
theorem ofParts_eq (parts : List (List UInt8)) (n : Nat) :
    ofParts parts n = ofBytes parts.flatten n := by
  rw [ofParts, Storage.ofParts_eq, ofBytes]

end Text

end Teletype
