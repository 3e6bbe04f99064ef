import Mathlib
import Teletype.Proofs.Input.Refilling
import Teletype.Proofs.Input.Following

/-!
# Ends that are heeded

`Refill.uninterrupted` skips interruptions and then takes what the stream has to say first. A
scanner that asks so heeds every end of the data: what stands behind the end is left for the next
request (`answer_heeds`), and no request fails with an interruption.
-/

namespace Teletype

/-- The request goes on until the stream is not interrupted. -/
def Refill.askUninterrupted : Reader (List UInt8) :=
  fun s => Source.request s.settle

/-- Such a request shows bytes of the stream or why there are none. -/
lemma Refill.askUninterrupted_shows (s : Source) : s.Shows (askUninterrupted s) := by
  have settled := s.settle_consumes
  have first := Source.request_shows s.settle
  by_cases left : s.buffer = []
  case neg =>
    rw [Source.settle_of_buffer left] at first
    rwa [askUninterrupted, Source.settle_of_buffer left]
  case pos =>
    unfold askUninterrupted
    cases h : Source.request s.settle with
    | error e t =>
      rw [h] at first
      exact ⟨settled.trans first.1, left, first.2.2⟩
    | ok piece t =>
      rw [h] at first
      exact ⟨settled.trans first.1, first.2.1, absurd left⟩

/-- Interruptions are skipped, and nothing else. -/
def Refill.uninterrupted : Refill :=
  ⟨askUninterrupted, askUninterrupted_shows⟩

/-- An interruption is skipped. -/
lemma Refill.askUninterrupted_interruption {e : Event} (h : e.isInterruption = true)
    (rest : List Event) (n : Nat) :
    askUninterrupted ⟨[], e :: rest, n⟩ = askUninterrupted ⟨[], rest, n⟩ := by
  simp [askUninterrupted, Source.settle, h]

/-- Any other event is taken as by asking once. -/
lemma Refill.askUninterrupted_other {e : Event} (h : ¬ e.isInterruption = true)
    (rest : List Event) (n : Nat) :
    askUninterrupted ⟨[], e :: rest, n⟩ = once.ask ⟨[], e :: rest, n⟩ := by
  simp [askUninterrupted, Source.settle, h, once]

/-- The failure is an interruption of the stream. -/
def Failure.IsInterruption (e : Failure) : Prop :=
  ∃ f, e = .error (.io f) ∧ f.isInterrupted = true

namespace Scanner

/-! ## Behind an end -/

/-- The same as `s`, with data behind it. -/
def Beside (later : List Event) (s t : Source) : Prop :=
  t.consumed = s.consumed ∧ t.unread = s.unread ++ later.flatMap Event.bytes

/-- What stands behind a source is beside it. -/
lemma beside_followedBy (later : List Event) (s : Source) :
    Beside later s (s.followedBy (.ended :: later)) := by
  refine ⟨rfl, ?_⟩
  simp [Source.followedBy, Source.unread, Event.bytes]

/-- Two results of one request. For the first one the source ends where for the second one the
stream only reports an end, with `later` behind it. A value with `last` shows that the end was
met. -/
inductive Heeds (later : List Event) {α : Type} (last : α → Prop) :
    EStateM.Result Failure Source α → EStateM.Result Failure Source α → Prop where
  | before {a t} :
    Heeds later last (.ok a t) (.ok a (t.followedBy (.ended :: later)))
  | ended {a t u} :
    last a →
    Beside later t u →
    Heeds later last (.ok a t) (.ok a u)
  | failed {e t u} :
    ¬ e.IsInterruption →
    Beside later t u →
    Heeds later last (.error e t) (.error e u)

/-- A run that heeds the end still does with more in front of it. -/
lemma Heeds.prepend {later run result result'}
    (heeds : Heeds later (fun run => run.2 = false) result result') :
    Heeds later (fun run => run.2 = false) (prepend run result) (prepend run result') := by
  cases heeds with
  | @before a t => exact @Heeds.before later _ _ (run ++ a.1, a.2) t
  | ended shown beside => exact .ended shown beside
  | failed other beside => exact .failed other beside

/-- On every source the computation heeds an end of the data with `later` behind it. -/
def Heeding (later : List Event) {α : Type} (last : α → Prop) (x : Reader α) : Prop :=
  ∀ s, Heeds later last (x s) (x (s.followedBy (.ended :: later)))

/-- A computation that reads no more. -/
inductive Final {α : Type} (last : α → Prop) : Reader α → Prop where
  | pure {a} :
    last a →
    Final last (Pure.pure a)
  | throw {e : Failure} :
    ¬ e.IsInterruption →
    Final last (MonadExcept.throw e)

/-- What reads no more does not notice what stands behind the end. -/
lemma Final.heeds {later : List Event} {α : Type} {last : α → Prop} {x : Reader α} {t u : Source}
    (final : Final last x) (beside : Beside later t u) : Heeds later last (x t) (x u) := by
  cases final with
  | pure shown => exact .ended shown beside
  | throw other => exact .failed other beside

namespace Heeding

variable {later : List Event} {α β : Type} {last : α → Prop} {last' : β → Prop}

/-- A value heeds every end. -/
lemma pure (a : α) : Heeding later last (Pure.pure a) :=
  fun _ => .before

/-- A failure that is no interruption heeds every end. -/
lemma throw {e : Failure} (other : ¬ e.IsInterruption) :
    Heeding later last (MonadExcept.throw e : Reader α) :=
  fun s => .failed other (beside_followedBy later s)

/-- Consuming bytes heeds every end. -/
lemma consume (n : Nat) {last : Unit → Prop} : Heeding later last (Source.consume n) :=
  fun s => @Heeds.before later Unit last () (s.advance n)

/-- Once the end has been met, nothing more may be read. -/
lemma bind {x : Reader α} {f : α → Reader β} (first : Heeding later last x)
    (final : ∀ a, last a → Final last' (f a)) (rest : ∀ a, Heeding later last' (f a)) :
    Heeding later last' (x >>= f) := by
  intro s
  show Heeds later last' (EStateM.bind x f s) (EStateM.bind x f (s.followedBy _))
  have found := first s
  unfold EStateM.bind
  generalize x s = result, x (s.followedBy _) = result' at found
  cases found with
  | @before a t => exact rest a t
  | @ended a t u shown beside => exact (final a shown).heeds beside
  | failed other beside => exact .failed other beside

/-- What is made of a result heeds the ends that the result heeds. -/
lemma map {x : Reader α} (f : α → β) (first : Heeding later last x) :
    Heeding later (fun _ => True) (f <$> x) := by
  intro s
  show Heeds later _ (EStateM.map f x s) (EStateM.map f x (s.followedBy _))
  have found := first s
  unfold EStateM.map
  generalize x s = result, x (s.followedBy _) = result' at found
  cases found with
  | before => exact .before
  | ended shown beside => exact .ended trivial beside
  | failed other beside => exact .failed other beside

/-! ## Requests -/

/-- A request heeds the end: only an empty piece shows it. -/
lemma ask (later : List Event) : Heeding later (· = []) Refill.uninterrupted.ask := by
  intro s
  by_cases left : s.buffer = []
  case neg =>
    have left' : (s.followedBy (.ended :: later)).buffer ≠ [] := left
    rw [Refill.ask_of_buffer _ left, Refill.ask_of_buffer _ left']
    exact .before
  case pos =>
    obtain ⟨buffer, pending, n⟩ := s
    cases left
    show Heeds later _ (Refill.askUninterrupted ⟨[], pending, n⟩)
      (Refill.askUninterrupted ⟨[], pending ++ .ended :: later, n⟩)
    -- interruptions go by on both sides alike, up to the first event that is none
    induction pending with
    | nil => exact .ended rfl ⟨rfl, rfl⟩
    | cons e rest ih =>
      by_cases h : e.isInterruption = true
      case pos =>
        rw [List.cons_append, Refill.askUninterrupted_interruption h,
          Refill.askUninterrupted_interruption h]
        exact ih
      case neg =>
        rw [List.cons_append, Refill.askUninterrupted_other h, Refill.askUninterrupted_other h]
        have beside := beside_followedBy later ⟨[], rest, n⟩
        cases e with
        | data b bs => exact @Heeds.before later _ _ (b :: bs) ⟨b :: bs, rest, n⟩
        | ended => exact .ended rfl beside
        | fault f =>
          refine .failed ?_ beside
          rintro ⟨_, same, interrupts⟩
          cases same
          exact h interrupts
        | abort message => exact .failed (by rintro ⟨_, same, _⟩; cases same) beside

/-- A piece with a byte is the same with data behind the end. -/
lemma ask_piece {later s b bs t} (asked : Refill.uninterrupted.ask s = .ok (b :: bs) t) :
    Refill.uninterrupted.ask (s.followedBy (.ended :: later)) =
      .ok (b :: bs) (t.followedBy (.ended :: later)) := by
  have shown := ask later s
  rw [asked] at shown
  generalize Refill.uninterrupted.ask (s.followedBy _) = result at shown
  cases shown with
  | before => rfl
  | ended none => cases none

/-- A run heeds the end: only a run that nothing stopped shows it. -/
lemma span (later : List Event) (p : UInt8 → Bool) :
    Heeding later (fun run => run.2 = false) (Scanner.span .uninterrupted p) := by
  intro s
  fun_induction Scanner.span .uninterrupted p s with
  | case1 s e t asked =>
    have shown := ask later s
    rw [asked] at shown
    rw [span_eq]
    generalize Refill.uninterrupted.ask (s.followedBy _) = result at shown
    cases shown with
    | failed other beside => exact .failed other beside
  | case2 s t asked =>
    have shown := ask later s
    rw [asked] at shown
    rw [span_eq]
    generalize Refill.uninterrupted.ask (s.followedBy _) = result at shown
    cases shown with
    | before => exact .before
    | ended _ beside => exact .ended rfl beside
  | case3 s b bs t asked run c cs rest =>
    -- where there are bytes to show, both sides show the same
    rw [span_eq, ask_piece asked]
    simp only [rest]
    exact @Heeds.before later _ _ (run, true) (t.advance run.length)
  | case4 s b bs t asked run rest more stopped u found ih =>
    rw [found] at ih
    rw [span_piece (ask_piece asked) rest, show run = b :: bs from takeWhile_of_dropWhile_nil rest]
    exact ih.prepend
  | case5 s b bs t asked rest e u found ih =>
    rw [found] at ih
    rw [span_piece (ask_piece asked) rest]
    exact ih.prepend

/-- A look at the next byte heeds the end: only the missing byte shows it. -/
lemma peek (later : List Event) : Heeding later (· = none) (Scanner.peek .uninterrupted) := by
  refine (ask later).bind ?_ fun _ => .pure _
  rintro _ rfl
  exact .pure rfl

/-- The end of the input is no interruption. -/
lemma not_endOfInput : ¬ Failure.IsInterruption (.error .endOfInput) := by
  rintro ⟨_, same, _⟩
  cases same

/-- Malformed bytes are no interruption. -/
lemma not_malformed (expected bytes) :
    ¬ Failure.IsInterruption (.error (.malformed expected bytes)) := by
  rintro ⟨_, same, _⟩
  cases same

/-- A read of a token heeds the end. -/
lemma token (later : List Event) :
    Heeding later (fun _ => True) (Scanner.token .uninterrupted) := by
  refine (span later isBlank).bind ?_ ?_
  · rintro ⟨blanks, _⟩ rfl
    exact .throw not_endOfInput
  · rintro ⟨blanks, _ | _⟩
    · exact .throw not_endOfInput
    · exact (span later _).bind (fun _ _ => .pure trivial) fun _ => .pure _

/-- A read of a line heeds the end. -/
lemma line (later : List Event) :
    Heeding later (fun _ => True) (Scanner.line .uninterrupted) := by
  refine (peek later).bind ?_ ?_
  · rintro _ rfl
    exact .throw not_endOfInput
  · rintro (_ | b)
    · exact .throw not_endOfInput
    · refine (span later _).bind ?_ ?_
      · rintro ⟨run, _⟩ rfl
        exact .pure trivial
      · rintro ⟨run, _ | _⟩
        · exact .pure _
        · exact (@consume later 1 fun _ => False).bind (fun _ => False.elim) fun _ => .pure _

/-- A read of continuation bytes heeds the end, and fails there. -/
lemma continuations (later : List Event) (n : Nat) (bytes : List UInt8) :
    Heeding later (fun _ => False) (Scanner.continuations .uninterrupted n bytes) := by
  induction n generalizing bytes with
  | zero => exact .pure bytes
  | succ n ih =>
    refine (peek later).bind ?_ ?_
    · rintro _ rfl
      exact .throw (not_malformed _ _)
    · rintro (_ | b)
      · exact .throw (not_malformed _ _)
      · by_cases hb : Utf8.isContinuation b = true
        · simp only [hb, if_true]
          exact (@consume later 1 fun _ => False).bind (fun _ => False.elim) fun _ => ih _
        · simp only [hb]
          exact .throw (not_malformed _ _)

/-- A read of a character heeds the end, and fails there. -/
lemma char (later : List Event) :
    Heeding later (fun _ => False) (Scanner.char .uninterrupted) := by
  refine (peek later).bind ?_ ?_
  · rintro _ rfl
    exact .throw not_endOfInput
  · rintro (_ | lead)
    · exact .throw not_endOfInput
    · refine (@consume later 1 fun _ => False).bind (fun _ => False.elim) fun _ => ?_
      cases Utf8.width? lead with
      | none => exact .throw (not_malformed _ _)
      | some width =>
        refine (continuations later (width - 1) [lead]).bind (fun _ => False.elim) fun bytes => ?_
        rcases Utf8.decode? bytes with _ | _ | ⟨c, cs⟩
        · exact .throw (not_malformed _ _)
        · exact .throw (not_malformed _ _)
        · exact .pure c

end Heeding

/-- Every request heeds the end of the data. -/
lemma answer_heeds (later : List Event) (q : Request) :
    Heeding later (fun _ => True) (answer .uninterrupted q) := by
  cases q with
  | token => exact (Heeding.token later).map Item.bytes
  | line => exact (Heeding.line later).map Item.bytes
  | char => exact (Heeding.char later).map Item.char

/-- Whatever is asked for, an end that shows at once is all that shows. -/
lemma answer_of_ask_nil {refill : Refill} {s t : Source} (asked : refill.ask s = .ok [] t)
    (q : Request) : answer refill q s = .error (.error .endOfInput) t := by
  have peeked : peek refill s = .ok none t := peek_of_ok asked
  cases q with
  | token =>
    show EStateM.map Item.bytes (EStateM.bind (span refill isBlank) _) s = _
    simp only [EStateM.map, EStateM.bind, span_of_nil asked]
    rfl
  | line =>
    show EStateM.map Item.bytes (EStateM.bind (peek refill) _) s = _
    simp only [EStateM.map, EStateM.bind, peeked]
    rfl
  | char =>
    show EStateM.map Item.char (EStateM.bind (peek refill) _) s = _
    simp only [EStateM.map, EStateM.bind, peeked]
    rfl

/-- The request takes an end of the data for one, and never fails with an interruption. -/
structure Heeded (refill : Refill) (q : Request) (s : Source) : Prop where
  /-- What stands behind an end at the end of the source is not read. -/
  behind : ∀ later,
    let result := answer refill q s
    let result' := answer refill q (s.followedBy (.ended :: later))
    Result.outcome result' = Result.outcome result ∧
      Beside later (Result.state result) (Result.state result')
  ended : ∀ rest, s.buffer = [] → s.settle.pending = .ended :: rest →
    Result.outcome (answer refill q s) = .error (.error .endOfInput)
  uninterrupted : ∀ e, Result.outcome (answer refill q s) = .error e → ¬ e.IsInterruption

/-- The replies of a scanner that skips interruptions show no interruption and no data behind an
end. -/
lemma answer_heeded (q : Request) (s : Source) : Heeded .uninterrupted q s where
  behind later := by
    have heeds := answer_heeds later q s
    generalize answer .uninterrupted q s = result,
      answer .uninterrupted q (s.followedBy _) = result' at heeds
    cases heeds with
    | before => exact ⟨rfl, beside_followedBy later _⟩
    | ended _ beside => exact ⟨rfl, beside⟩
    | failed _ beside => exact ⟨rfl, beside⟩
  ended rest none next := by
    have asked : Refill.uninterrupted.ask s = .ok [] { s with pending := rest } := by
      have settled : s.settle = { s with pending := .ended :: rest } := by
        obtain ⟨buffer, pending, n⟩ := s
        cases none
        exact congrArg (Source.mk [] · n) next
      show Source.request s.settle = _
      obtain ⟨buffer, pending, n⟩ := s
      cases none
      rw [settled]
      rfl
    rw [answer_of_ask_nil asked q]
    rfl
  uninterrupted e failed := by
    have heeds := answer_heeds [] q s
    generalize answer .uninterrupted q s = result,
      answer .uninterrupted q (s.followedBy _) = result' at heeds failed
    cases heeds with
    | before | ended => cases failed
    | failed other =>
      cases failed
      exact other

end Scanner

end Teletype
