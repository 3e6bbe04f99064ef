import Mathlib
import Teletype.Proofs.Input.Refilling

/-!
# Events behind events

What a scanner that asks once does on a source, it also does when more events stand behind those of
the source, unless it comes to where they begin (`span_extends`). A line is what one such run makes
(`answer_line`).
-/

namespace Teletype

/-- The source with more events behind its own. -/
def Source.followedBy (s : Source) (later : List Event) : Source :=
  { s with pending := s.pending ++ later }

/-- Events can be put behind a source one by one. -/
lemma Source.followedBy_cons (s : Source) (e : Event) (rest : List Event) :
    s.followedBy (e :: rest) = (s.followedBy [e]).followedBy rest := by
  simp [followedBy]

/-- Bytes of the buffer are consumed in front of what stands behind. -/
lemma Source.followedBy_advance (s : Source) (later : List Event) (n : Nat) :
    (s.advance n).followedBy later = (s.followedBy later).advance n :=
  rfl

/-- How far the source is from its end. -/
def Source.size (s : Source) : Nat :=
  s.unread.length + s.pending.length

/-- Every byte consumed brings the source nearer to its end. -/
lemma Source.Consumes.size {s t : Source} {bs : List UInt8} (passed : s.Consumes bs t) :
    t.size + bs.length ≤ s.size := by
  have fewer := passed.pending.length_le
  unfold Source.size
  rw [passed.unread, List.length_append]
  omega

/-- The source is at its very end. -/
def Source.Exhausted (s : Source) : Prop :=
  s.buffer = [] ∧ s.pending = []

/-- Behind an exhausted source the later events come first. -/
lemma Source.Exhausted.followedBy {s : Source} (none : s.Exhausted) (later : List Event) :
    s.followedBy later = ⟨[], later, s.consumed⟩ := by
  obtain ⟨buffer, pending, consumed⟩ := s
  obtain ⟨rfl, rfl⟩ := none
  rfl

/-- An exhausted source reports the end of the data and stays as it is. -/
lemma Source.Exhausted.ask {s : Source} (none : s.Exhausted) : Refill.once.ask s = .ok [] s := by
  obtain ⟨buffer, pending, consumed⟩ := s
  obtain ⟨rfl, rfl⟩ := none
  rfl

/-- As long as anything is left of the source, what stands behind it makes no difference. -/
lemma once_followedBy {s : Source} (left : ¬ s.Exhausted) (later : List Event) :
    Refill.once.ask (s.followedBy later) =
      Result.mapState (·.followedBy later) (Refill.once.ask s) := by
  obtain ⟨_ | ⟨b, bs⟩, _ | ⟨e, rest⟩, n⟩ := s
  · exact absurd ⟨rfl, rfl⟩ left
  · cases e <;> rfl
  · rfl
  · rfl

/-- Where no byte is left, a request takes an event. -/
lemma once_size {s : Source} (left : ¬ s.Exhausted) (none : s.buffer = []) :
    (Result.state (Refill.once.ask s)).size < s.size := by
  obtain ⟨buffer, _ | ⟨e, rest⟩, n⟩ := s
  · exact absurd ⟨none, rfl⟩ left
  · cases none
    have fewer : ∀ k, k + rest.length < k + (e :: rest).length := by simp
    cases e <;> exact fewer _

namespace Scanner

/-- More of a run that has begun. -/
def prepend (run : List UInt8) :
    EStateM.Result Failure Source (List UInt8 × Bool) →
      EStateM.Result Failure Source (List UInt8 × Bool)
  | .ok (more, stopped) t => .ok (run ++ more, stopped) t
  | .error e t => .error e t

/-- An empty run in front changes nothing. -/
@[simp] lemma prepend_nil (result) : prepend [] result = result := by
  cases result <;> rfl

/-- Runs in front of a run add up. -/
@[simp] lemma prepend_prepend (run more result) :
    prepend run (prepend more result) = prepend (run ++ more) result := by
  cases result with
  | ok => simp [prepend]
  | error => rfl

/-- What comes in front of a run does not depend on the source left. -/
@[simp] lemma prepend_mapState (φ : Source → Source) (run result) :
    prepend run (Result.mapState φ result) = Result.mapState φ (prepend run result) := by
  cases result <;> rfl

/-- A piece that belongs to the run as a whole. -/
lemma span_piece {refill : Refill} {p s b bs t} (asked : refill.ask s = .ok (b :: bs) t)
    (rest : (b :: bs).dropWhile p = []) :
    span refill p s = prepend (b :: bs) (span refill p (t.advance (b :: bs).length)) := by
  rw [span_eq, asked]
  simp only [rest, takeWhile_of_dropWhile_nil rest]
  cases span refill p (t.advance (b :: bs).length) <;> rfl

/-- The source behind a run, and behind the byte that stopped it. -/
def behindRun : EStateM.Result Failure Source (List UInt8 × Bool) → Source
  | .ok (_, true) t => t.advance 1
  | .ok (_, false) t => t
  | .error _ t => t

/-- What comes in front of a run does not move its end. -/
@[simp] lemma behindRun_prepend (run result) :
    behindRun (prepend run result) = behindRun result := by
  rcases result with ⟨⟨more, _ | _⟩, t⟩ | ⟨e, t⟩ <;> rfl

/-- What a run from `s` makes of events behind `s`: either it gets on without them, or it comes to
where they begin. -/
inductive Extends (p : UInt8 → Bool) (s : Source) : Prop where
  | within :
    (behindRun (span .once p s)).size < s.size →
    (∀ later, span .once p (s.followedBy later) =
      Result.mapState (·.followedBy later) (span .once p s)) →
    Extends p s
  | beyond {run n} :
    (∀ later, span .once p (s.followedBy later) = prepend run (span .once p ⟨[], later, n⟩)) →
    Extends p s

/-- A piece in front changes nothing, as long as the run does not end in it. -/
lemma Extends.piece {p s b bs t} (asked : Refill.once.ask s = .ok (b :: bs) t)
    (rest : (b :: bs).dropWhile p = []) (ext : Extends p (t.advance (b :: bs).length)) :
    Extends p s := by
  have left : ¬ s.Exhausted := fun none => by simp [none.ask] at asked
  have asked' : ∀ later,
      Refill.once.ask (s.followedBy later) = .ok (b :: bs) (t.followedBy later) := by
    intro later
    rw [once_followedBy left, asked]
    rfl
  cases ext with
  | within smaller same =>
    refine .within ?_ fun later => ?_
    · obtain ⟨passed, buffer⟩ := Refill.ask_ok asked
      have taken := (passed.trans (.advance (buffer.trans (List.append_nil _).symm))).size
      rw [span_piece asked rest, behindRun_prepend]
      omega
    · rw [span_piece (asked' later) rest, span_piece asked rest, ← Source.followedBy_advance,
        same later, prepend_mapState]
  | @beyond run n same =>
    refine @Extends.beyond p s ((b :: bs) ++ run) n fun later => ?_
    rw [span_piece (asked' later) rest, ← Source.followedBy_advance, same later, prepend_prepend]

/-- What ends a run at once does so whatever follows, unless it is the end of the source. -/
lemma Extends.here {p s} (left : ¬ s.Exhausted)
    (smaller : (behindRun (span .once p s)).size < s.size)
    (ends : ∀ b bs t, Refill.once.ask s = .ok (b :: bs) t → (b :: bs).dropWhile p ≠ []) :
    Extends p s := by
  refine .within smaller fun later => ?_
  rw [span_eq, once_followedBy left, span_eq .once p s]
  cases asked : Refill.once.ask s with
  | error e t => rfl
  | ok piece t =>
    cases piece with
    | nil => rfl
    | cons b bs =>
      obtain ⟨c, cs, stop⟩ := List.exists_cons_of_ne_nil (ends b bs t asked)
      simp only [Result.mapState, stop]
      rfl

/-- The induction follows the refills. -/
lemma span_extends (p : UInt8 → Bool) (s : Source) : Extends p s := by
  fun_induction span .once p s with
  | case1 s e t asked =>
    have left : ¬ s.Exhausted := fun none => by simp [none.ask] at asked
    have none : s.buffer = [] := by
      have shown := Refill.once.shows s
      rw [asked] at shown
      exact shown.2.1
    have smaller := once_size left none
    refine .here left ?_ (by simp [asked])
    rw [span_of_error asked]
    rwa [asked] at smaller
  | case2 s t asked =>
    by_cases left : s.Exhausted
    case pos =>
      -- only here does the run meet what stands behind
      refine @Extends.beyond p s [] s.consumed fun later => ?_
      rw [left.followedBy later, prepend_nil]
    case neg =>
      have none : s.buffer = [] := by
        by_contra some
        rw [Refill.ask_of_buffer _ some] at asked
        exact some (EStateM.Result.ok.inj asked).1
      have smaller := once_size left none
      refine .here left ?_ (by simp [asked])
      rw [span_of_nil asked]
      rwa [asked] at smaller
  | case3 s b bs t asked run c cs rest =>
    have left : ¬ s.Exhausted := fun none => by simp [none.ask] at asked
    obtain ⟨passed, buffer⟩ := Refill.ask_ok asked
    -- the byte that stops the run makes the source smaller, even where the run is empty
    have front : t.buffer = run ++ ([c] ++ cs) :=
      buffer.trans (takeWhile_of_dropWhile_cons rest).1
    have stopper : (t.advance run.length).Consumes [c] ((t.advance run.length).advance 1) :=
      .advance (Source.buffer_advance front)
    have taken := (passed.trans ((Source.Consumes.advance front).trans stopper)).size
    refine .here left ?_ fun b' bs' t' asked' => ?_
    · rw [span_eq, asked]
      simp only [rest]
      rw [List.length_append, List.length_append, List.length_singleton] at taken
      show ((t.advance run.length).advance 1).size < s.size
      omega
    · cases asked.symm.trans asked'
      simp [rest]
  | case4 s b bs t asked run rest more stopped u found ih => exact .piece asked rest ih
  | case5 s b bs t asked rest e u found ih => exact .piece asked rest ih

/-! ## Lines -/

/-- The line that a run up to a line feed makes. -/
def lineOf :
    EStateM.Result Failure Source (List UInt8 × Bool) → EStateM.Result Failure Source Item
  | .ok (run, true) t => .ok (.bytes (withoutReturn run)) (t.advance 1)
  | .ok ([], false) t => .error (.error .endOfInput) t
  | .ok (b :: bs, false) t => .ok (.bytes (withoutReturn (b :: bs))) t
  | .error e t => .error e t

/-- A line leaves the source that is behind its run. -/
lemma state_lineOf (result) : Result.state (lineOf result) = behindRun result := by
  rcases result with ⟨⟨_ | ⟨b, bs⟩, _ | _⟩, t⟩ | ⟨e, t⟩ <;> rfl

/-- A run that ends without a failure makes a line, or nothing at the end of the data. -/
lemma eq_endOfInput_of_lineOf {out t e} (failed : Result.outcome (lineOf (.ok out t)) = .error e) :
    e = .error .endOfInput := by
  rcases out with ⟨_ | ⟨b, bs⟩, _ | _⟩ <;> cases failed
  rfl

/-- Asking for bytes before a run leaves the run as it is. -/
lemma span_of_ask {refill : Refill} {p s b bs t} (asked : refill.ask s = .ok (b :: bs) t) :
    span refill p s = span refill p t := by
  have buffer := (Refill.ask_ok asked).2
  rw [span_eq, asked, span_eq refill p t, refill.ask_of_buffer (by simp [buffer]), buffer]

/-- Where a byte is left, a run cannot be empty and go on to the end. -/
lemma span_ne_ended {refill : Refill} {p s b bs t} (buffer : s.buffer = b :: bs) :
    span refill p s ≠ .ok ([], false) t := by
  intro found
  by_cases hb : p b = true
  · exact span_ne_nil buffer hb found rfl
  · have stop : (b :: bs).dropWhile p = b :: bs := List.dropWhile_cons_of_neg hb
    rw [span_eq, refill.ask_of_buffer (by simp [buffer]), buffer] at found
    simp only [stop] at found
    have stopped := congrArg Prod.snd (EStateM.Result.ok.inj found).1
    cases stopped

/-- The look at the next byte decides nothing that the run behind it would not show. -/
lemma answer_line (refill : Refill) (s : Source) :
    answer refill .line s = lineOf (span refill (fun b => b != lf) s) := by
  show EStateM.map Item.bytes (line refill) s = _
  unfold line EStateM.map
  simp only [bind, EStateM.bind]
  cases asked : refill.ask s with
  | error e t =>
    rw [span_of_error asked, peek_of_error asked]
    rfl
  | ok piece t =>
    have peeked := peek_of_ok asked
    cases piece with
    | nil =>
      rw [span_of_nil asked, peeked]
      rfl
    | cons b bs =>
      have buffer := (Refill.ask_ok asked).2
      rw [span_of_ask asked, show peek refill s = .ok (some b) t from peeked]
      simp only [Option.isNone_some, Bool.false_eq_true, if_false, EStateM.bind]
      cases found : span refill (fun b => b != lf) t with
      | error e u => rfl
      | ok out u =>
        rcases out with ⟨_ | ⟨c, cs⟩, _ | _⟩
        -- the look has seen a byte, so the run does not end in front of it
        · exact absurd found (span_ne_ended buffer)
        · rfl
        · rfl
        · rfl

/-- A run never gives bytes back. -/
lemma consumed_le_behindRun (refill : Refill) (p : UInt8 → Bool) (s : Source) :
    s.consumed ≤ (behindRun (span refill p s)).consumed := by
  have spans := span_spans refill p s
  generalize span refill p s = result at spans
  rcases result with ⟨⟨run, _ | _⟩, t⟩ | ⟨e, t⟩
  · have passed := spans.consumes.1.consumed
    show s.consumed ≤ t.consumed
    omega
  · have passed := spans.consumes.1.consumed
    show s.consumed ≤ t.consumed + 1
    omega
  · obtain ⟨run, passed, _⟩ := spans.consumes_error
    have passed := passed.consumed
    show s.consumed ≤ t.consumed
    omega

/-- A run takes the byte in front, or else that byte stops it. -/
lemma consumed_lt_behindRun {refill : Refill} {p s b bs} (buffer : s.buffer = b :: bs) :
    s.consumed < (behindRun (span refill p s)).consumed := by
  have asked := refill.ask_of_buffer (s := s) (by simp [buffer])
  rw [buffer] at asked
  cases rest : (b :: bs).dropWhile p with
  | nil =>
    have more := consumed_le_behindRun refill p (s.advance (b :: bs).length)
    rw [span_piece asked rest, behindRun_prepend]
    exact Nat.lt_of_lt_of_le (Nat.lt_add_of_pos_right (Nat.succ_pos bs.length)) more
  | cons c cs =>
    rw [span_eq, asked]
    simp only [rest]
    show s.consumed < s.consumed + _ + 1
    omega

end Scanner

end Teletype
