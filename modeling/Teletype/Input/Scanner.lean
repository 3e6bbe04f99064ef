import Teletype.Input.Refill

/-!
# Scanning

Tokens, lines and characters from a source, across as many pieces as they take. Tokens are runs of
bytes between blanks; a token leaves the blank behind it unread. Characters are taken as they come,
blanks too.
-/

namespace Teletype.Scanner

/-- The bytes that separate words: space, tab, line feed, form feed and carriage return. -/
def isBlank (b : UInt8) : Bool :=
  b == 0x20 || b == 0x09 || b == 0x0A || b == 0x0C || b == 0x0D

/-- Consumes the longest run of bytes that satisfy `p`. With the run comes whether a byte that does
not satisfy `p` stopped it; otherwise the data ended. -/
def span (refill : Refill) (p : UInt8 → Bool) (s : Source) :
    EStateM.Result Failure Source (List UInt8 × Bool) :=
  match _ : refill.ask s with
  | .error e t => .error e t
  | .ok [] t => .ok ([], false) t
  | .ok (b :: bs) t =>
    let run := (b :: bs).takeWhile p
    match (b :: bs).dropWhile p with
    | _ :: _ => .ok (run, true) (t.advance run.length)
    | [] =>
      match span refill p (t.advance (b :: bs).length) with
      | .ok (more, stopped) u => .ok (run ++ more, stopped) u
      | .error e u => .error e u
termination_by s.unread.length
decreasing_by
  have shown := refill.shows s
  rw [‹refill.ask s = _›] at shown
  obtain ⟨passed, buffer, _⟩ := shown
  have consumed := passed.trans (.advance (buffer.trans (List.append_nil _).symm))
  rw [consumed.unread]
  simp only [List.length_append, List.length_cons]
  omega

/-- The next byte, left unread. -/
def peek (refill : Refill) : Reader (Option UInt8) := do
  let piece ← refill.ask
  return piece.head?

/-- Skips blanks and takes the bytes up to the next one. There must be one byte at least. -/
def token (refill : Refill) : Reader (List UInt8) := do
  let (_, found) ← span refill isBlank
  if !found then throw (.error .endOfInput)
  let (run, _) ← span refill fun b => !isBlank b
  return run

/-- A line without one carriage return at its end, whether or not a line feed followed it. -/
def withoutReturn (line : List UInt8) : List UInt8 :=
  if line.getLast? = some 0x0D then line.dropLast else line

/-- Takes the bytes up to the next line feed, which is consumed as well. -/
def line (refill : Refill) : Reader (List UInt8) := do
  if (← peek refill).isNone then throw (.error .endOfInput)
  let (run, ended) ← span refill fun b => b != 0x0A
  if ended then Source.consume 1
  return withoutReturn run

/-- Up to `n` continuation bytes behind the bytes of a character read so far. -/
def continuations (refill : Refill) : Nat → List UInt8 → Reader (List UInt8)
  | 0, bytes => return bytes
  | n + 1, bytes => do
    match ← peek refill with
    | none => throw (.error (.malformed Expected.completeUtf8 bytes))
    | some b =>
      if Utf8.isContinuation b then
        Source.consume 1
        continuations refill n (bytes ++ [b])
      else throw (.error (.malformed Expected.utf8 bytes))

/-- Takes as many bytes as the first of them calls for, and decodes them. -/
def char (refill : Refill) : Reader Char := do
  match ← peek refill with
  | none => throw (.error .endOfInput)
  | some lead =>
    Source.consume 1
    match Utf8.width? lead with
    | none => throw (.error (.malformed Expected.utf8 [lead]))
    | some width =>
      let bytes ← continuations refill (width - 1) [lead]
      match Utf8.decode? bytes with
      | some (c :: _) => return c
      | _ => throw (.error (.malformed Expected.utf8 bytes))

/-- What can be asked of a scanner. -/
inductive Request
  | token
  | line
  | char
  deriving DecidableEq, Repr

/-- What a scanner gives. -/
inductive Item
  | bytes (bs : List UInt8)
  | char (c : Char)
  deriving DecidableEq, Repr

/-- Takes what is asked for. -/
def answer (refill : Refill) : Request → Reader Item
  | .token => Item.bytes <$> token refill
  | .line => Item.bytes <$> line refill
  | .char => Item.char <$> char refill

end Teletype.Scanner
