import Teletype.Input.Source

/-!
# Refills

How a scanner gets at the current piece of its source. A refill may drop events that bring no data,
but it neither loses data nor consumes any, and it drops nothing while part of a piece is left: that
is all a scanner relies on.
-/

namespace Teletype

/-- A way to ask a source for bytes, which is to tell no more than the source shows. -/
structure Refill where
  ask : Reader (List UInt8)
  shows : ∀ s : Source, s.Shows (ask s)

namespace Refill

/-- Asks until the stream is not interrupted, and then once more: what the second request shows is
what counts. When the first one met the end of the data, the second one goes on behind it. -/
def askTwice : Reader (List UInt8) := fun s =>
  match Source.request s.settle with
  | .ok _ t => Source.request t
  | .error e t => .error e t

/-- Bytes at hand are shown without asking. -/
theorem askTwice_of_buffer {s : Source} (h : s.buffer ≠ []) : askTwice s = .ok s.buffer s := by
  unfold askTwice
  rw [Source.settle_of_buffer h, Source.request_of_buffer h]
  exact Source.request_of_buffer h

/-- An interruption in front makes no difference. -/
theorem askTwice_interruption {e : Event} (h : e.isInterruption = true) (rest : List Event)
    (n : Nat) : askTwice ⟨[], e :: rest, n⟩ = askTwice ⟨[], rest, n⟩ := by
  have skip : Source.settle ⟨[], e :: rest, n⟩ = Source.settle ⟨[], rest, n⟩ := by
    simp [Source.settle, h]
  rw [askTwice, skip, askTwice]

/-- Asking twice shows what the source has. -/
theorem askTwice_shows (s : Source) : s.Shows (askTwice s) := by
  by_cases left : s.buffer = []
  case neg =>
    rw [askTwice_of_buffer left]
    exact ⟨.refl s, rfl, fun _ => rfl⟩
  case pos =>
    have settled := s.settle_consumes
    have first := Source.request_shows s.settle
    unfold askTwice
    cases h : Source.request s.settle with
    | error e t =>
      rw [h] at first
      exact ⟨settled.trans first.1, left, first.2.2⟩
    | ok piece t =>
      rw [h] at first
      have passed := settled.trans first.1
      have second := Source.request_shows t
      dsimp only
      cases h' : Source.request t with
      | error e u =>
        rw [h'] at second
        exact ⟨passed.trans second.1, left, second.2.2⟩
      | ok piece u =>
        rw [h'] at second
        exact ⟨passed.trans second.1, second.2.1, absurd left⟩

/-- The way that consoles ask. -/
def twice : Refill :=
  ⟨askTwice, askTwice_shows⟩

end Refill

end Teletype
