import Mathlib
import Teletype.Proofs.Input.Inversion
import Teletype.Proofs.Input.Session

/-!
# Chunking does not matter

A calm stream brings data in pieces and is interrupted at times; nothing else happens on it. There
a scanner answers as if all the data lay before it in one piece. `Flat` is the reference on such
flat data, in terms of longest prefixes alone. The lemmas `Spans.calm`, `Peeks.calm` and
`Continues.calm` find the prefixes of the flat data in the judgments of the scanner, and
`session_eq_flat` compares whole sessions.
-/

namespace Teletype

/-- The event only brings data or interrupts. -/
inductive Event.Calm : Event → Prop where
  | data {b bs} :
    Event.Calm (.data b bs)
  | interruption {e} :
    e.isInterruption = true →
    Event.Calm e

/-- The stream never fails, and only the end of its events ends its data. -/
def Source.Calm (s : Source) : Prop :=
  ∀ e ∈ s.pending, e.Calm

namespace Scanner.Flat

/-- The answer to a request on flat data, and the bytes in front that it takes. -/
structure Reading where
  outcome : Outcome Item
  taken : List UInt8

/-- A token is the longest run without blanks, behind the longest run of blanks. -/
def token (r : List UInt8) : Reading :=
  let blanks := r.takeWhile isBlank
  let run := (r.dropWhile isBlank).takeWhile fun b => !isBlank b
  if r.dropWhile isBlank = [] then ⟨.error (.error .endOfInput), blanks⟩
  else ⟨.ok (.bytes run), blanks ++ run⟩

/-- A line goes up to the first line feed, which is taken with it, or else to the end. One carriage
return at its end is taken off. -/
def line (r : List UInt8) : Reading :=
  let run := r.takeWhile fun b => b != lf
  let feed := (r.dropWhile fun b => b != lf).take 1
  if r = [] then ⟨.error (.error .endOfInput), []⟩
  else ⟨.ok (.bytes (withoutReturn run)), run ++ feed⟩

/-- The continuation bytes in front, up to the number expected. -/
def more (n : Nat) (r : List UInt8) : List UInt8 :=
  (r.take n).takeWhile Utf8.isContinuation

/-- The character that the bytes encode, or the failure to decode them. -/
def decoded (bytes : List UInt8) : Outcome Item :=
  match Utf8.decode? bytes with
  | some (c :: _) => .ok (.char c)
  | _ => .error (.error (.malformed Expected.utf8 bytes))

/-- A character is a lead byte and as many continuation bytes as it calls for. With fewer of them
it is malformed, or incomplete when the data ends behind them. -/
def char : List UInt8 → Reading
  | [] => ⟨.error (.error .endOfInput), []⟩
  | lead :: rest =>
    match Utf8.width? lead with
    | none => ⟨.error (.error (.malformed Expected.utf8 [lead])), [lead]⟩
    | some width =>
      let more := more (width - 1) rest
      let expected := if more.length = rest.length then Expected.completeUtf8 else Expected.utf8
      ⟨if more.length = width - 1 then decoded (lead :: more)
        else .error (.error (.malformed expected (lead :: more))), lead :: more⟩

/-- The flat answer to a request. -/
def answer : Request → List UInt8 → Reading
  | .token => token
  | .line => line
  | .char => char

/-- The flat replies to one request after the other. -/
def session : List Request → List UInt8 → List Reply
  | [], _ => []
  | q :: qs, r =>
    let reading := answer q r
    let rest := r.drop reading.taken.length
    ⟨reading.outcome, reading.taken.length, rest⟩ :: session qs rest

end Scanner.Flat

/-! ## Calm refills -/

/-- A calm source stays calm while its bytes are consumed. -/
lemma Source.Consumes.calm {s t : Source} {bs} (passed : s.Consumes bs t) (calm : s.Calm) :
    t.Calm :=
  fun e mem => calm e (passed.pending.subset mem)

/-- On a calm source a refill succeeds, and it shows nothing only when nothing is left. -/
lemma ask_calm {s : Source} (calm : s.Calm) :
    ∃ t, Refill.twice.ask s = .ok t.buffer t ∧ (t.buffer = [] → s.unread = []) := by
  by_cases left : s.buffer = []
  case neg => exact ⟨s, Refill.ask_of_buffer _ left, fun none => absurd none left⟩
  case pos =>
    obtain ⟨buffer, pending, consumed⟩ := s
    cases left
    show ∃ t, Refill.askTwice _ = .ok t.buffer t ∧ _
    induction pending with
    | nil => exact ⟨⟨[], [], consumed⟩, rfl, fun _ => rfl⟩
    | cons e rest ih =>
      obtain ⟨first, later⟩ := List.forall_mem_cons.mp calm
      cases first with
      | @data b bs => exact ⟨⟨b :: bs, rest, consumed⟩, rfl, fun none => nomatch none⟩
      | interruption h =>
        obtain ⟨t, asked, none⟩ := ih later
        rw [Refill.askTwice_interruption h]
        refine ⟨t, asked, fun empty => ?_⟩
        show e.bytes ++ rest.flatMap Event.bytes = []
        rw [e.bytes_of_isInterruption h]
        exact none empty

/-- On a calm source the end of the data shows that nothing is unread. -/
lemma unread_of_ask_nil {s t : Source} (calm : s.Calm) (asked : Refill.twice.ask s = .ok [] t) :
    t.unread = [] := by
  obtain ⟨u, shown, none⟩ := ask_calm calm
  obtain ⟨buffer, rfl⟩ := EStateM.Result.ok.inj (shown.symm.trans asked)
  have passed := (Refill.ask_ok asked).1.unread
  rw [none buffer] at passed
  exact passed.symm

/-- Asking twice, a calm source does not fail. -/
lemma ask_ne_error {s t : Source} {e} (calm : s.Calm) :
    Refill.twice.ask s ≠ .error e t := by
  intro asked
  obtain ⟨u, shown, _⟩ := ask_calm calm
  cases shown.symm.trans asked

namespace Scanner

/-- On a calm source a `span` finds the longest run of the flat data. -/
lemma Spans.calm {p s run stopped t} (sp : Spans .twice p s (.ok (run, stopped) t))
    (calm : s.Calm) :
    run = s.unread.takeWhile p ∧ t.unread = s.unread.dropWhile p ∧
      (stopped = true ↔ t.unread ≠ []) := by
  have consumed := sp.consumes.1.unread
  cases sp with
  | stopped passed all buffer stop =>
    have ends : ∀ y ∈ t.unread.head?, p y = false := by simp [Source.unread, buffer, stop]
    obtain ⟨front, rest⟩ := takeWhile_append_stop all ends
    rw [consumed]
    refine ⟨front.symm, rest.symm, ?_⟩
    simp [Source.unread, buffer]
  | ended passed all last =>
    have none := unread_of_ask_nil (passed.calm calm) last
    have ends : ∀ y ∈ ([] : List UInt8).head?, p y = false := by simp
    obtain ⟨front, rest⟩ := takeWhile_append_stop all ends
    rw [consumed, none]
    exact ⟨front.symm, rest.symm, by simp⟩

/-- No run over a calm source fails. -/
lemma Spans.calm_error {p s e t} (calm : s.Calm) : ¬ Spans .twice p s (.error e t) := by
  intro sp
  cases sp with
  | failed passed all last => exact ask_ne_error (passed.calm calm) last

/-- A calm source without a next byte has nothing unread. -/
lemma Peeks.calm_none {s t} (pk : Peeks .twice s (.ok none t)) (calm : s.Calm) :
    s.unread = [] := by
  cases pk with
  | ended last =>
    rw [(Refill.ask_ok last).1.unread, unread_of_ask_nil calm last]
    rfl

/-- A calm source does not fail to show its next byte. -/
lemma Peeks.calm_error {s e t} (calm : s.Calm) : ¬ Peeks .twice s (.error e t) := by
  intro pk
  cases pk with
  | failed last => exact ask_ne_error calm last

/-- Continuation bytes are found in front, if they are all expected or no more follow. -/
lemma Flat.more_append {n : Nat} {xs ys : List UInt8}
    (all : ∀ x ∈ xs, Utf8.isContinuation x = true) (len : xs.length ≤ n)
    (stop : xs.length < n → ∀ y ∈ ys.head?, Utf8.isContinuation y = false) :
    Flat.more n (xs ++ ys) = xs := by
  rw [Flat.more, List.take_append, List.take_of_length_le len]
  refine (takeWhile_append_stop all ?_).1
  intro y mem
  rw [List.head?_take] at mem
  split_ifs at mem with full
  · cases mem
  · exact stop (by omega) y mem

/-- On a calm source `continuations` finds those of the flat data. -/
lemma Continues.calm {n bytes s found t} (ct : Continues .twice n bytes s (.ok found t)) :
    found = bytes ++ Flat.more n s.unread ∧ (Flat.more n s.unread).length = n ∧
      s.Consumes (Flat.more n s.unread) t := by
  cases ct with
  | @whole more _ passed all len =>
    have same : Flat.more n s.unread = more := by
      rw [passed.unread]
      exact Flat.more_append all len.le (fun short => absurd len short.ne)
    rw [same]
    exact ⟨rfl, len, passed⟩

/-- Where it finds too few of them, it matters whether the flat data ends there. -/
lemma Continues.calm_error {n bytes s e t} (ct : Continues .twice n bytes s (.error e t))
    (calm : s.Calm) :
    (Flat.more n s.unread).length < n ∧ s.Consumes (Flat.more n s.unread) t ∧
      e = .error (.malformed
        (if (Flat.more n s.unread).length = s.unread.length then Expected.completeUtf8
          else Expected.utf8) (bytes ++ Flat.more n s.unread)) := by
  cases ct with
  | @broken more b bs _ passed all len buffer stop =>
    have same : Flat.more n s.unread = more := by
      rw [passed.unread]
      refine Flat.more_append all len.le (fun _ => ?_)
      simp [Source.unread, buffer, stop]
    -- the byte that broke the sequence is still unread, so the data does not end here
    have longer : more.length ≠ s.unread.length := by
      rw [passed.unread, Source.unread, buffer]
      simp
    rw [same, if_neg longer]
    exact ⟨len, passed, rfl⟩
  | @ended more u _ passed all len last =>
    have passed' := consumes_ended passed last
    have same : Flat.more n s.unread = more := by
      rw [passed'.unread, unread_of_ask_nil (passed.calm calm) last]
      exact Flat.more_append all len.le (by simp)
    have whole : more.length = s.unread.length := by
      rw [passed'.unread, unread_of_ask_nil (passed.calm calm) last, List.append_nil]
    rw [same, if_pos whole]
    exact ⟨len, passed', rfl⟩
  | failed passed all len last => exact absurd last (ask_ne_error (passed.calm calm))

/-! ## Requests -/

/-- From `s` the result is the one read off the flat data. -/
def Flat.Reads (s : Source) {α : Type} (item : α → Item)
    (result : EStateM.Result Failure Source α) (reading : Flat.Reading) : Prop :=
  s.Consumes reading.taken (Result.state result) ∧
    (Result.outcome result).map item = reading.outcome

/-- A token of a calm source is the first token of its unread bytes. -/
lemma Tokens.calm {s result} (tk : Tokens .twice s result) (calm : s.Calm) :
    Flat.Reads s Item.bytes result (Flat.token s.unread) := by
  unfold Flat.token
  cases tk with
  | token first second some =>
    have passed := first.consumes.1
    obtain ⟨front, rest, stop⟩ := first.calm calm
    obtain ⟨run, _, _⟩ := second.calm (passed.calm calm)
    have left := stop.mp rfl
    rw [rest] at left run
    rw [if_neg left, ← front, ← run]
    exact ⟨passed.trans second.consumes.1, rfl⟩
  | ended first =>
    have passed := first.consumes.1
    obtain ⟨front, rest, stop⟩ := first.calm calm
    have none : s.unread.dropWhile isBlank = [] := by simpa [rest] using stop
    rw [if_pos none, ← front]
    exact ⟨passed, rfl⟩
  | before first => exact absurd first (Spans.calm_error calm)
  | inside first second =>
    exact absurd second (Spans.calm_error (first.consumes.1.calm calm))

/-- A line of a calm source is the first line of its unread bytes. -/
lemma Lines.calm {s result} (ln : Lines .twice s result) (calm : s.Calm) :
    Flat.Reads s Item.bytes result (Flat.line s.unread) := by
  unfold Flat.line
  cases ln with
  | @terminated b t run u first second =>
    have looked := first.consumes
    have passed := second.consumes.1
    obtain ⟨front, rest, _⟩ := second.calm (looked.calm calm)
    rw [show t.unread = s.unread from looked.unread.symm] at front rest
    have left : s.unread ≠ [] := by simp [first.led.unread]
    rw [if_neg left, ← front, ← rest]
    refine ⟨?_, rfl⟩
    cases second with
    | @stopped _ c bs _ _ _ buffer stop =>
      -- the byte that stopped the run is consumed with it
      have feed : u.unread.take 1 = [c] := by simp [Source.unread, buffer]
      rw [feed]
      exact looked.trans (passed.trans (.advance buffer))
  | @last b t run u first second =>
    have looked := first.consumes
    have passed := second.consumes.1
    obtain ⟨front, rest, stop⟩ := second.calm (looked.calm calm)
    rw [show t.unread = s.unread from looked.unread.symm] at front rest
    have left : s.unread ≠ [] := by simp [first.led.unread]
    -- nothing stopped the run, so nothing is behind it
    have none : u.unread = [] := by simpa using stop
    rw [if_neg left, ← front, ← rest, none]
    refine ⟨?_, rfl⟩
    show s.Consumes (run ++ []) u
    rw [List.append_nil]
    exact looked.trans passed
  | ended first =>
    rw [if_pos (first.calm_none calm)]
    exact ⟨first.consumes_none, rfl⟩
  | before first => exact absurd first (Peeks.calm_error calm)
  | inside first second =>
    exact absurd second (Spans.calm_error (first.consumes.calm calm))

/-- A character of a calm source is the first character of its unread bytes. -/
lemma Chars.calm {s result} (ch : Chars .twice s result) (calm : s.Calm) :
    Flat.Reads s Item.char result (Flat.char s.unread) := by
  cases ch with
  | char first hw second found =>
    obtain ⟨rfl, len, passed⟩ := second.calm
    rw [first.led.unread]
    simp only [List.singleton_append, Flat.char, hw, if_pos len, Flat.decoded]
    rw [List.singleton_append] at found
    refine ⟨first.led.trans passed, ?_⟩
    simp only [found]
    rfl
  | undecodable first hw second other =>
    obtain ⟨rfl, len, passed⟩ := second.calm
    rw [first.led.unread]
    simp only [List.singleton_append, Flat.char, hw, if_pos len, Flat.decoded]
    refine ⟨first.led.trans passed, ?_⟩
    split
    next c cs found => exact absurd found (other c cs)
    next => rfl
  | inside first hw second =>
    obtain ⟨len, passed, rfl⟩ := second.calm_error (first.led.calm calm)
    rw [first.led.unread]
    simp only [List.singleton_append, Flat.char, hw, if_neg len.ne]
    exact ⟨first.led.trans passed, rfl⟩
  | noLead first hw =>
    rw [first.led.unread]
    simp only [List.singleton_append, Flat.char, hw]
    exact ⟨first.led, rfl⟩
  | ended first =>
    rw [first.calm_none calm]
    exact ⟨first.consumes_none, rfl⟩
  | before first => exact absurd first (Peeks.calm_error calm)

/-- On a calm source every request is answered from the unread bytes alone. -/
lemma answer_calm {s : Source} (calm : s.Calm) (q : Request) :
    Flat.Reads s id (answer .twice q s) (Flat.answer q s.unread) := by
  cases q with
  | token => simpa [Flat.Reads, answer, Flat.answer] using (token_tokens .twice s).calm calm
  | line => simpa [Flat.Reads, answer, Flat.answer] using (line_lines .twice s).calm calm
  | char => simpa [Flat.Reads, answer, Flat.answer] using (char_chars .twice s).calm calm

/-- A session over a calm source is the flat session over its unread bytes. -/
lemma session_calm (qs : List Request) {s : Source} (calm : s.Calm) :
    session .twice qs s = Flat.session qs s.unread := by
  induction qs generalizing s with
  | nil => rfl
  | cons q qs ih =>
    obtain ⟨passed, same⟩ := answer_calm calm q
    -- what the request leaves unread is the flat data without what the reading takes
    have rest := congrArg (List.drop (Flat.answer q s.unread).taken.length) passed.unread
    rw [List.drop_left] at rest
    have head : Reply.of s (answer .twice q s) =
        ⟨(Flat.answer q s.unread).outcome, (Flat.answer q s.unread).taken.length,
          (Result.state (answer .twice q s)).unread⟩ := by
      rw [← Reply.consumed_of passed, ← same]
      simp [Reply.of]
    simp only [session, Flat.session, rest, head, ih (passed.calm calm)]

/-- However the data is cut into pieces, and wherever interruptions stand between them, the replies
of a session are those on the flat data. -/
theorem session_eq_flat (data : List UInt8) (events : List Event) (calm : ∀ e ∈ events, e.Calm)
    (cut : events.flatMap Event.bytes = data) (qs : List Request) :
    session .twice qs (.ofEvents events) = Flat.session qs data := by
  rw [← cut]
  exact session_calm qs calm

/-- A character cut by an interruption, and a line end cut between its two bytes. -/
theorem session_across_cuts :
    let interruption := Event.fault ⟨.interrupted, "again"⟩
    let events := [interruption, .data 0x20 [0xC3], interruption, .data 0xA9 [0x0D], .data 0x0A []]
    let data : List UInt8 := [0x20, 0xC3, 0xA9, 0x0D, 0x0A]
    (∀ e ∈ events, e.Calm) ∧ events.flatMap Event.bytes = data ∧
      session .twice [.char, .char, .line, .token] (.ofEvents events) =
        [⟨.ok (.char ' '), 1, [0xC3, 0xA9, 0x0D, 0x0A]⟩, ⟨.ok (.char 'é'), 2, [0x0D, 0x0A]⟩,
          ⟨.ok (.bytes []), 2, []⟩, ⟨.error (.error .endOfInput), 0, []⟩] := by
  intro interruption events data
  have calm : ∀ e ∈ events, e.Calm := by
    simp only [events, interruption, List.forall_mem_cons]
    exact ⟨.interruption rfl, .data, .interruption rfl, .data, .data, by simp⟩
  refine ⟨calm, rfl, ?_⟩
  exact (session_eq_flat data events calm rfl _).trans (by cbv)

end Scanner

end Teletype
