import Mathlib
import Teletype.Proofs.Command.Scan
import Teletype.Proofs.Console.Canonical

/-!
# Scans of their own output

A scan of tokens that succeeds has written the canonical text of each value, one on a line
(`Echoes.values`). A scan of the same kinds takes these lines for what they are and writes them
again (`echoes_lines`). So whatever the first scan made of the spelling and the blanks of its input,
a second one changes nothing more (`run_idempotent`).
-/

namespace Teletype

namespace Console

/-! ## Reads that go well -/

/-- The word in front is taken from the source, and the value is read from it. -/
inductive TokenKind.Gives (k : TokenKind) (s : Source) (v : Value) (t : Source) : Prop where
  | word {blanks word} :
    s.Consumes (blanks ++ word) t →
    Scanner.Leads s.unread blanks word t.unread →
    k.judge word = .ok v →
    Gives k s v t

/-- A read that goes on brings nothing out. -/
lemma Ready.accepted {c : Console} {t} (ready : Ready c t) : t.accepted = c.sink.accepted := by
  cases ready with
  | bare => rfl
  | flushed on fl => exact fl.accepted

variable {k : TokenKind} {c d : Console} {v : Value}

/-- A token read with success gives the value of the word in front, and nothing else changes. -/
lemma read_gives (calm : c.source.Calm) (got : read k.kind c = .ok v d) :
    k.Gives c.source v d.source ∧ d.sink.accepted = c.sink.accepted ∧ d.config = c.config := by
  have rd := read_reads k.kind c
  rw [got] at rd
  cases rd with
  | value ready found =>
    obtain ⟨judged, rest⟩ := reader_token k c.source
    have tw := Scanner.token_takesWord calm
    rw [found] at judged rest
    generalize Scanner.token .twice c.source = result at tw judged rest
    cases tw with
    | word passed ld =>
      cases rest
      exact ⟨.word passed ld judged.symm, ready.accepted, rfl⟩
    | ended => cases judged

/-- A read of a word that denotes a value goes well. -/
lemma read_of_leads (calm : c.source.Calm) (willing : c.sink.Willing) {blanks word behind}
    (ld : Scanner.Leads c.source.unread blanks word behind) (judged : k.judge word = .ok v) :
    ∃ d, read k.kind c = .ok v d := by
  obtain ⟨outcome, _⟩ := step_of_leads k calm willing ld
  rw [TokenKind.answer_eq_ok_iff.mpr judged, Step.of, perform, Result.outcome_map] at outcome
  generalize read k.kind c = result at outcome
  cases result with
  | ok u d =>
    cases outcome
    exact ⟨d, rfl⟩
  | error => cases outcome

end Console

namespace Command

open Console (TokenKind Indifferent Appends line read writeLine)

variable {ks : List TokenKind} {vs : List Value}

/-- A console on which neither the source nor the sink fails. -/
structure Smooth (c : Console) : Prop where
  calm : c.source.Calm
  unfailing : c.sink.Unfailing

/-- A token is read and its line is written. -/
structure EchoesToken (k : TokenKind) (c : Console) (v : Value) (d : Console) : Prop where
  gives : k.Gives c.source v d.source
  accepted : d.sink.accepted = c.sink.accepted ++ line c.config.lineEnding v
  config : d.config = c.config
  smooth : Smooth d

/-- A read and its line, both with success, echo a token. -/
lemma echoesToken {k : TokenKind} {c d e : Console} {v : Value} (smooth : Smooth c)
    (got : read k.kind c = .ok v d) (put : writeLine v d = .ok () e) : EchoesToken k c v e := by
  obtain ⟨gives, quiet, config⟩ := Console.read_gives smooth.calm got
  have unfailing := (Indifferent.read _).unfailing got smooth.unfailing
  obtain ⟨t, written, accepted, unfailing⟩ :=
    Appends.emit (v.render ++ d.config.lineEnding.bytes) d unfailing
  obtain rfl : { d with sink := t } = e := by
    cases written.symm.trans put
    rfl
  rw [quiet, config] at accepted
  obtain ⟨passed, _⟩ := id gives
  exact ⟨gives, accepted, config, passed.calm smooth.calm, unfailing⟩

/-- Behind reads that go well are the lines of settled values. -/
lemma Echoes.values {c d : Console} (es : Echoes (ks.map TokenKind.kind) c d) (smooth : Smooth c) :
    ∃ vs, List.Forall₂ TokenKind.Settled ks vs ∧
      d.sink.accepted = c.sink.accepted ++ vs.flatMap (line c.config.lineEnding) := by
  induction ks generalizing c with
  | nil =>
    cases es
    exact ⟨[], .nil, (List.append_nil _).symm⟩
  | cons k ks ih =>
    cases es with
    | @next _ _ _ _ _ _ v got put es =>
      have first := echoesToken smooth got put
      obtain ⟨vs, settled, accepted⟩ := ih es first.smooth
      obtain ⟨_, ld, judged⟩ := first.gives
      refine ⟨v :: vs, .cons (TokenKind.settled_of_judge ld.isWord judged) settled, ?_⟩
      rw [accepted, first.accepted, first.config, List.flatMap_cons, List.append_assoc]

/-- Where the lines of settled values are ahead, behind blanks, each value is read again and its
line is written as it was. The last line ending stays unread. -/
lemma echoes_lines (settled : List.Forall₂ TokenKind.Settled ks vs) {c : Console}
    (smooth : Smooth c) {blanks : List UInt8} (blank : ∀ b ∈ blanks, Scanner.isBlank b = true)
    (unread : c.source.unread = blanks ++ vs.flatMap (line c.config.lineEnding)) :
    ∃ d front, Echoes (ks.map TokenKind.kind) c d ∧ c.source.Consumes front d.source ∧
      d.source.unread = (if vs = [] then blanks else c.config.lineEnding.bytes) ∧
      d.sink.accepted = c.sink.accepted ++ vs.flatMap (line c.config.lineEnding) := by
  induction settled generalizing c blanks with
  | nil =>
    refine ⟨c, [], .done, .refl c.source, ?_, (List.append_nil _).symm⟩
    simpa using unread
  | @cons k v ks vs is settled ih =>
    have ld : Scanner.Leads c.source.unread blanks v.render
        (c.config.lineEnding.bytes ++ vs.flatMap (line c.config.lineEnding)) := by
      refine ⟨?_, blank, is.isWord.some, is.isWord.solid, Scanner.stop_of_ending _ _⟩
      rw [unread, List.flatMap_cons, line, List.append_assoc]
    obtain ⟨u, judged, same⟩ := is.again
    -- what is read of a settled value need not be that value, but it has the same text
    have again : line c.config.lineEnding u = line c.config.lineEnding v := by
      rw [line, line, same]
    obtain ⟨d, got⟩ := Console.read_of_leads smooth.calm smooth.unfailing.willing ld judged
    have unfailing := (Indifferent.read _).unfailing got smooth.unfailing
    obtain ⟨t, put, _⟩ := Appends.emit (u.render ++ d.config.lineEnding.bytes) d unfailing
    have first := echoesToken smooth got put
    obtain ⟨passed, ld', _⟩ := first.gives
    have rest := (ld'.unique ld).2
    rw [← first.config] at rest
    obtain ⟨e, front, es, passed', stop, more⟩ := ih first.smooth Scanner.blank_of_ending rest
    refine ⟨e, _, .next got put es, passed.trans passed', ?_, ?_⟩
    · rw [stop, first.config, ite_self, if_neg (List.cons_ne_nil _ _)]
    · rw [more, first.accepted, again, first.config, List.flatMap_cons, List.append_assoc]

namespace Scan

/-- A scan of tokens that succeeds, where neither input nor output fails, has written what a scan of
the same kinds writes again as it stands, from whatever pieces. The second scan consumes all of it
but the line ending behind the last value. -/
theorem run_idempotent (ks : List TokenKind) (some : ks ≠ []) (config : Config)
    (events again : List Event) (calm : ∀ e ∈ events, e.Calm) (calm' : ∀ e ∈ again, e.Calm)
    (sink sink' : Sink) (fresh : sink.log = []) (fresh' : sink'.log = [])
    (unfailing : sink.Unfailing) (unfailing' : sink'.Unfailing) :
    let first := run (ks.map TokenKind.kind) ⟨.ofEvents events, sink, config⟩
    let second := run (ks.map TokenKind.kind) ⟨.ofEvents again, sink', config⟩
    first.outcome = .ok () → again.flatMap Event.bytes = first.console.sink.accepted →
      second.outcome = .ok () ∧
        second.console.sink.accepted = first.console.sink.accepted ∧
        ∃ front, first.console.sink.accepted = front ++ config.lineEnding.bytes ∧
          (Source.ofEvents again).Consumes front second.console.source ∧
          second.console.source.unread = config.lineEnding.bytes := by
  intro first second ok cut
  -- the first scan leaves the lines of settled values
  obtain ⟨d, es⟩ := echoes_of_ok ok
  obtain ⟨vs, settled, accepted⟩ := es.values ⟨calm, unfailing⟩
  obtain ⟨t, whole, same⟩ := run_of_echoes es unfailing
  have lines : first.console.sink.accepted = vs.flatMap (line config.lineEnding) := by
    simp only [first, whole, same, accepted, Sink.accepted_of_fresh fresh, List.nil_append]
  -- and these the second one reads and writes again
  have unread : (Source.ofEvents again).unread = vs.flatMap (line config.lineEnding) :=
    cut.trans lines
  have nothing : ∀ b ∈ ([] : List UInt8), Scanner.isBlank b = true := by simp
  obtain ⟨e, front, es', passed, stop, accepted'⟩ :=
    echoes_lines settled (c := ⟨.ofEvents again, sink', config⟩) ⟨calm', unfailing'⟩ nothing unread
  obtain ⟨t', whole', same'⟩ := run_of_echoes es' unfailing'
  have some' : vs ≠ [] := by
    rintro rfl
    cases settled
    exact some rfl
  rw [if_neg some'] at stop
  have split := passed.unread
  rw [stop] at split
  simp only [second, whole', lines]
  refine ⟨trivial, ?_, front, ?_, passed, stop⟩
  · rw [same', accepted', Sink.accepted_of_fresh fresh', List.nil_append]
  · exact unread.symm.trans split

/-- Signs, zeros, letter case and blanks of several kinds are gone after one scan. The second one
gets its input cut within the line endings. -/
theorem run_idempotent_respelled :
    let ks : List TokenKind := [.int, .float, .bool, .string]
    let config : Config := { lineEnding := .crlf }
    let events := [Event.data 0x20 [0x2B, 0x30, 0x30], .data 0x37 [0x09, 0x2D, 0x6E],
      .data 0x41 [0x6E, 0x0C, 0x54, 0x52, 0x55, 0x45, 0x20, 0x6E, 0xC3, 0xA9]]
    let again := [Event.data 0x37 [0x0D],
      .data 0x0A [0x4E, 0x61, 0x4E, 0x0D, 0x0A, 0x74, 0x72, 0x75, 0x65, 0x0D],
      .data 0x0A [0x6E, 0xC3, 0xA9], .data 0x0D [0x0A]]
    let first := run (ks.map TokenKind.kind) ⟨.ofEvents events, {}, config⟩
    let second := run (ks.map TokenKind.kind) ⟨.ofEvents again, {}, config⟩
    (∀ e ∈ events, e.Calm) ∧ (∀ e ∈ again, e.Calm) ∧ Sink.Unfailing {} ∧
      first.outcome = .ok () ∧ again.flatMap Event.bytes = first.console.sink.accepted ∧
      second.outcome = .ok () ∧ second.console.sink.accepted = first.console.sink.accepted ∧
      second.console.source.unread = [0x0D, 0x0A] := by
  intro ks config events again first second
  have calm : ∀ e ∈ events, e.Calm := by
    simp only [events, List.forall_mem_cons]
    exact ⟨.data, .data, .data, by simp⟩
  have calm' : ∀ e ∈ again, e.Calm := by
    simp only [again, List.forall_mem_cons]
    exact ⟨.data, .data, .data, .data, by simp⟩
  have unfailing : Sink.Unfailing {} := ⟨by simp [Sink.Progresses], by simp [Sink.Willing]⟩
  have ok : first.outcome = .ok () := by
    subst first events config ks
    cbv
  have cut : again.flatMap Event.bytes = first.console.sink.accepted := by
    subst first again events config ks
    cbv
  obtain ⟨succeeds, same, _, _, _, left⟩ := run_idempotent ks (by simp [ks]) config events again
    calm calm' {} {} rfl rfl unfailing unfailing ok cut
  exact ⟨calm, calm', unfailing, ok, cut, succeeds, same, left⟩

end Scan

end Command

end Teletype
