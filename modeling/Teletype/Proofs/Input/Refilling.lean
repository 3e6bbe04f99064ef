import Mathlib
import Teletype.Proofs.Input.Inversion
import Teletype.Proofs.Input.Session

/-!
# Asking once

`Refill.once` makes a single request and takes any failure as it comes, where `Refill.twice` skips
interruptions and goes on behind the end of the data. What the latter makes of a stream depends on
its events alone: `normalize` rewrites them, and on the rewritten stream `Refill.once` does the
same. The lemmas `Carries.span`, `Carries.token` and so on carry this from single refills to all
that a scanner does with them, and `session_normalize` to whole sessions.
-/

namespace Teletype

/-- From the image of any source `y` does what `x` does from the source itself. -/
def Mirrors (φ : Source → Source) {α : Type} (x y : Reader α) : Prop :=
  ∀ s, y (φ s) = Result.mapState φ (x s)

namespace Mirrors

variable {φ : Source → Source} {α β : Type}

/-- A value mirrors itself. -/
lemma pure (a : α) : Mirrors φ (Pure.pure a) (Pure.pure a) :=
  fun _ => rfl

/-- A failure mirrors itself. -/
lemma throw (e : Failure) : Mirrors φ (MonadExcept.throw e : Reader α) (MonadExcept.throw e) :=
  fun _ => rfl

/-- Mirrored steps one after the other are mirrored. -/
lemma bind {x y : Reader α} {f g : α → Reader β} (first : Mirrors φ x y)
    (rest : ∀ a, Mirrors φ (f a) (g a)) : Mirrors φ (x >>= f) (y >>= g) := by
  intro s
  show EStateM.bind y g (φ s) = Result.mapState φ (EStateM.bind x f s)
  unfold EStateM.bind
  rw [first s]
  cases x s with
  | error e t => rfl
  | ok a t => exact rest a t

/-- What is made of mirrored results is mirrored. -/
lemma map {x y : Reader α} (f : α → β) (first : Mirrors φ x y) :
    Mirrors φ (f <$> x) (f <$> y) := by
  intro s
  show EStateM.map f y (φ s) = Result.mapState φ (EStateM.map f x s)
  unfold EStateM.map
  rw [first s]
  cases x s <;> rfl

end Mirrors

/-- A map of sources under which refills of the second kind do what those of the first kind do. -/
structure Carries (φ : Source → Source) (first second : Refill) : Prop where
  ask : Mirrors φ first.ask second.ask
  advance : ∀ s n, φ (s.advance n) = (φ s).advance n
  unread : ∀ s, (φ s).unread = s.unread
  consumed : ∀ s, (φ s).consumed = s.consumed

namespace Carries

open Scanner

variable {φ : Source → Source} {first second : Refill}

/-- Runs are mirrored where the requests are. -/
lemma span (carries : Carries φ first second) (p : UInt8 → Bool) :
    Mirrors φ (Scanner.span first p) (Scanner.span second p) := by
  intro s
  -- the induction follows the refills of the first kind; the second is unfolded once beside it
  rw [span_eq second, carries.ask s]
  fun_induction Scanner.span first p s with
  | case1 s e t asked => rw [asked]; rfl
  | case2 s t asked => rw [asked]; rfl
  | case3 s b bs t asked run c cs rest =>
    rw [asked]
    simp only [Result.mapState, rest, carries.advance]
    rfl
  | case4 s b bs t asked run rest more stopped u found ih =>
    rw [found] at ih
    rw [asked]
    simp only [Result.mapState, rest, ← carries.advance]
    rw [span_eq, carries.ask, ih]
    rfl
  | case5 s b bs t asked rest e u found ih =>
    rw [found] at ih
    rw [asked]
    simp only [Result.mapState, rest, ← carries.advance]
    rw [span_eq, carries.ask, ih]
    rfl

/-- Consuming bytes is mirrored. -/
lemma consume (carries : Carries φ first second) (n : Nat) :
    Mirrors φ (Source.consume n) (Source.consume n) := by
  intro s
  show EStateM.Result.ok _ ((φ s).advance n) = _
  rw [← carries.advance]
  rfl

/-- Looks at the next byte are mirrored. -/
lemma peek (carries : Carries φ first second) :
    Mirrors φ (Scanner.peek first) (Scanner.peek second) :=
  carries.ask.bind fun _ => .pure _

/-- Reads of tokens are mirrored. -/
lemma token (carries : Carries φ first second) :
    Mirrors φ (Scanner.token first) (Scanner.token second) := by
  refine (carries.span isBlank).bind ?_
  rintro ⟨blanks, _ | _⟩
  · exact .throw _
  · exact (carries.span _).bind fun _ => .pure _

/-- Reads of lines are mirrored. -/
lemma line (carries : Carries φ first second) :
    Mirrors φ (Scanner.line first) (Scanner.line second) := by
  refine carries.peek.bind ?_
  rintro (_ | b)
  · exact .throw _
  · refine (carries.span _).bind ?_
    rintro ⟨run, _ | _⟩
    · exact .pure _
    · exact (carries.consume 1).bind fun _ => .pure _

/-- Reads of continuation bytes are mirrored. -/
lemma continuations (carries : Carries φ first second) (n : Nat) (bytes : List UInt8) :
    Mirrors φ (Scanner.continuations first n bytes) (Scanner.continuations second n bytes) := by
  induction n generalizing bytes with
  | zero => exact .pure bytes
  | succ n ih =>
    refine carries.peek.bind ?_
    rintro (_ | b)
    · exact .throw _
    · by_cases hb : Utf8.isContinuation b = true
      · simp only [hb, if_true]
        exact (carries.consume 1).bind fun _ => ih (bytes ++ [b])
      · simp only [hb]
        exact .throw _

/-- Reads of characters are mirrored. -/
lemma char (carries : Carries φ first second) :
    Mirrors φ (Scanner.char first) (Scanner.char second) := by
  refine carries.peek.bind ?_
  rintro (_ | lead)
  · exact .throw _
  · refine (carries.consume 1).bind fun _ => ?_
    cases Utf8.width? lead with
    | none => exact .throw _
    | some width =>
      refine (carries.continuations (width - 1) [lead]).bind fun bytes => ?_
      rcases Utf8.decode? bytes with _ | _ | ⟨c, cs⟩
      · exact .throw _
      · exact .throw _
      · exact .pure c

/-- Answers are mirrored. -/
lemma answer (carries : Carries φ first second) (q : Request) :
    Mirrors φ (Scanner.answer first q) (Scanner.answer second q) := by
  cases q with
  | token => exact carries.token.map Item.bytes
  | line => exact carries.line.map Item.bytes
  | char => exact carries.char.map Item.char

/-- What a caller learns does not tell the two kinds apart. -/
lemma session (carries : Carries φ first second) (qs : List Request) (s : Source) :
    Scanner.session second qs (φ s) = Scanner.session first qs s := by
  induction qs generalizing s with
  | nil => rfl
  | cons q qs ih =>
    have same := carries.answer q s
    simp only [Scanner.session, Reply.of, same, Result.outcome_mapState, Result.state_mapState,
      carries.consumed, carries.unread, ih]

end Carries

/-! ## Normal events -/

/-- The refill that asks once: what the stream reports first is what counts. -/
def Refill.once : Refill :=
  ⟨Source.request, Source.request_shows⟩

/-- What asking twice makes of events. An interruption is dropped, and so is the end of the data
when anything follows: what follows counts then, be it an interruption or the end once more. -/
def normalize : List Event → List Event
  | [] => []
  | [.ended] => [.ended]
  | .ended :: e :: rest => e :: normalize rest
  | e :: rest => if e.isInterruption then normalize rest else e :: normalize rest

/-- The source with the events that asking twice makes of those to come. -/
def Source.normal (s : Source) : Source :=
  { s with pending := normalize s.pending }

/-- Asking twice loses no data. -/
lemma normalize_bytes (events : List Event) :
    (normalize events).flatMap Event.bytes = events.flatMap Event.bytes := by
  fun_induction normalize events with
  | case1 => rfl
  | case2 => rfl
  | case3 e rest ih => simp [Event.bytes, ih]
  | case4 e rest _ _ interrupts ih =>
    rw [List.flatMap_cons, e.bytes_of_isInterruption interrupts]
    exact ih
  | case5 e rest _ _ other ih => simp [ih]

/-- Asking once on the rewritten stream is asking twice on the original one. -/
lemma normal_ask (s : Source) :
    Refill.once.ask s.normal = Result.mapState Source.normal (Refill.twice.ask s) := by
  by_cases left : s.buffer = []
  case neg =>
    have left' : s.normal.buffer ≠ [] := left
    rw [Refill.ask_of_buffer _ left, Refill.ask_of_buffer _ left']
    rfl
  case pos =>
    obtain ⟨buffer, pending, consumed⟩ := s
    cases left
    show Source.request ⟨[], normalize pending, consumed⟩ =
      Result.mapState Source.normal (Refill.askTwice ⟨[], pending, consumed⟩)
    fun_induction normalize pending with
    | case1 => rfl
    | case2 => rfl
    | case3 e rest ih => cases e <;> rfl
    | case4 e rest _ _ interrupts ih =>
      rw [Refill.askTwice_interruption interrupts]
      exact ih
    | case5 e rest last behind other ih =>
      have stays : Source.settle ⟨[], e :: rest, consumed⟩ = ⟨[], e :: rest, consumed⟩ := by
        simp [Source.settle, other]
      rw [Refill.askTwice, stays]
      cases e with
      | ended =>
        -- an end of the data with or without events behind it has been rewritten above
        cases rest with
        | nil => exact absurd rfl (last rfl)
        | cons e rest => exact absurd rfl (behind e rest rfl)
      | data => rfl
      | fault => rfl
      | abort => rfl

/-- Asking twice does on a source what asking once does on its normal one. -/
lemma normal_carries : Carries Source.normal .twice .once where
  ask := normal_ask
  advance _ _ := rfl
  unread s := congrArg (s.buffer ++ ·) (normalize_bytes s.pending)
  consumed _ := rfl

/-- On any events a scanner that asks twice answers as one that asks once, and takes every failure
as it comes, answers on the events rewritten. The data is the same there, and the events are
rewritten in the same way for all requests. -/
theorem Scanner.session_normalize (events : List Event) (qs : List Scanner.Request) :
    Scanner.session .twice qs (.ofEvents events) =
        Scanner.session .once qs (.ofEvents (normalize events)) ∧
      (normalize events).flatMap Event.bytes = events.flatMap Event.bytes :=
  ⟨(normal_carries.session qs (.ofEvents events)).symm, normalize_bytes events⟩

end Teletype
