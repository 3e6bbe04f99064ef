import Teletype.Failure

/-!
# Sources

A stream of bytes that arrives in pieces. Between the pieces it may report its end, which more
pieces can follow, refuse a call, or abort. A source shows its current piece until all of it has
been consumed and then takes the next event. `Source.unread` is all the data still to come; no
request changes it.
-/

namespace Teletype

/-- What a stream has to say at one request. -/
inductive Event
  | data (head : UInt8) (tail : List UInt8)
  | ended
  | fault (fault : Fault)
  | abort (message : String)
  deriving DecidableEq, Repr

/-- The bytes that an event brings. -/
def Event.bytes : Event → List UInt8
  | data head tail => head :: tail
  | _ => []

/-- The event only asks to be called again. -/
def Event.isInterruption : Event → Bool
  | fault f => f.isInterrupted
  | _ => false

/-- An interruption brings no bytes. -/
theorem Event.bytes_of_isInterruption (e : Event) (h : e.isInterruption = true) : e.bytes = [] := by
  cases e with
  | fault => rfl
  | data | ended | abort => cases h

/-- Bytes in one piece, if there are any. -/
def Event.ofBytes : List UInt8 → List Event
  | [] => []
  | b :: bs => [.data b bs]

/-- A stream as its reader sees it. -/
structure Source where
  buffer : List UInt8 := []
  pending : List Event := []
  consumed : Nat := 0
  deriving DecidableEq, Repr

/-- A computation that reads from a source. It leaves the source as far as it came, also when it
fails. -/
abbrev Reader := EStateM Failure Source

namespace Source

/-- The source of some events, of which nothing is known yet. -/
def ofEvents (events : List Event) : Source :=
  { pending := events }

/-- The data still to come. -/
def unread (s : Source) : List UInt8 :=
  s.buffer ++ s.pending.flatMap Event.bytes

/-- The source after `n` more bytes of the current piece. -/
def advance (s : Source) (n : Nat) : Source :=
  { s with buffer := s.buffer.drop n, consumed := s.consumed + n }

/-- Shows the current piece, or the next event when nothing is left of it. The end of the data
shows as an empty piece. -/
def request : Reader (List UInt8) := fun s =>
  match s.buffer, s.pending with
  | b :: bs, _ => .ok (b :: bs) s
  | [], [] => .ok [] s
  | [], .data b bs :: rest => .ok (b :: bs) { s with buffer := b :: bs, pending := rest }
  | [], .ended :: rest => .ok [] { s with pending := rest }
  | [], .fault f :: rest => .error (.error (.io f)) { s with pending := rest }
  | [], .abort message :: rest => .error (.abort (.stream message)) { s with pending := rest }

/-- The source without the interruptions that come next. -/
def settle (s : Source) : Source :=
  match s.buffer with
  | [] => { s with pending := s.pending.dropWhile Event.isInterruption }
  | _ :: _ => s

/-- Drops bytes from the front of those at hand. -/
def consume (n : Nat) : Reader Unit :=
  modify (·.advance n)

/-- On the way from `s` to `t` exactly the bytes `bs` are consumed, and events are only passed. -/
structure Consumes (s : Source) (bs : List UInt8) (t : Source) : Prop where
  unread : s.unread = bs ++ t.unread
  consumed : t.consumed = s.consumed + bs.length
  pending : t.pending <:+ s.pending

/-- Nothing is consumed on the way from a source to itself. -/
theorem Consumes.refl (s : Source) : s.Consumes [] s :=
  ⟨rfl, rfl, List.suffix_refl _⟩

/-- What is consumed on the way adds up. -/
theorem Consumes.trans {s t u : Source} {bs cs : List UInt8} (first : s.Consumes bs t)
    (second : t.Consumes cs u) : s.Consumes (bs ++ cs) u where
  unread := by rw [first.unread, second.unread, List.append_assoc]
  consumed := by rw [second.consumed, first.consumed, List.length_append, Nat.add_assoc]
  pending := second.pending.trans first.pending

/-- Bytes in front of those at hand are consumed by advancing. -/
theorem Consumes.advance {s : Source} {bs cs : List UInt8} (buffer : s.buffer = bs ++ cs) :
    s.Consumes bs (s.advance bs.length) where
  unread := by simp [Source.unread, Source.advance, buffer]
  consumed := rfl
  pending := List.suffix_refl _

/-- Behind the bytes consumed the others stay at hand. -/
theorem buffer_advance {s : Source} {bs cs : List UInt8} (buffer : s.buffer = bs ++ cs) :
    (s.advance bs.length).buffer = cs := by
  simp [advance, buffer]

/-- The result of a request shows the current piece and consumes nothing. Events are passed only
when nothing is left of the piece before, and only the stream itself can fail. -/
def Shows (s : Source) : EStateM.Result Failure Source (List UInt8) → Prop
  | .ok piece t => s.Consumes [] t ∧ t.buffer = piece ∧ (s.buffer ≠ [] → t = s)
  | .error e t => s.Consumes [] t ∧ s.buffer = [] ∧ e.isStream = true

/-- Bytes at hand are given without a request. -/
theorem request_of_buffer {s : Source} (h : s.buffer ≠ []) : request s = .ok s.buffer s := by
  obtain ⟨_ | ⟨b, bs⟩, pending, consumed⟩ := s
  · exact absurd rfl h
  · rfl

/-- A request shows what the source has. -/
theorem request_shows (s : Source) : s.Shows (request s) := by
  obtain ⟨buffer, pending, consumed⟩ := s
  cases buffer with
  | cons b bs => exact ⟨.refl _, rfl, fun _ => rfl⟩
  | nil =>
    cases pending with
    | nil => exact ⟨.refl _, rfl, fun _ => rfl⟩
    | cons e rest =>
      have passed := List.suffix_cons e rest
      cases e with
      | data => exact ⟨⟨rfl, rfl, passed⟩, rfl, by simp⟩
      | ended => exact ⟨⟨rfl, rfl, passed⟩, rfl, by simp⟩
      | fault => exact ⟨⟨rfl, rfl, passed⟩, rfl, rfl⟩
      | abort => exact ⟨⟨rfl, rfl, passed⟩, rfl, rfl⟩

/-- A source with bytes at hand is settled. -/
theorem settle_of_buffer {s : Source} (h : s.buffer ≠ []) : s.settle = s := by
  obtain ⟨_ | ⟨b, bs⟩, pending, consumed⟩ := s
  · exact absurd rfl h
  · rfl

/-- Without the interruptions in front the events bring the same bytes. -/
theorem flatMap_dropWhile_isInterruption (events : List Event) :
    (events.dropWhile Event.isInterruption).flatMap Event.bytes = events.flatMap Event.bytes := by
  induction events with
  | nil => rfl
  | cons e rest ih =>
    by_cases h : e.isInterruption = true
    · rw [List.dropWhile_cons_of_pos h, List.flatMap_cons, e.bytes_of_isInterruption h]
      exact ih
    · rw [List.dropWhile_cons_of_neg h]

/-- Settling consumes nothing. -/
theorem settle_consumes (s : Source) : s.Consumes [] s.settle := by
  obtain ⟨_ | ⟨b, bs⟩, pending, consumed⟩ := s
  · refine ⟨?_, rfl, List.dropWhile_suffix _⟩
    simp [settle, unread, flatMap_dropWhile_isInterruption]
  · exact .refl _

end Source

end Teletype
