import Mathlib
import Teletype.Proofs.Console.Words
import Teletype.Proofs.Input.Lines
import Teletype.Proofs.Literal.Integer
import Teletype.Proofs.Output.Progress
import Teletype.Proofs.Text.WellFormed
import Teletype.Proofs.Utf8.Position

/-!
# Written and read back

What one console writes on lines another one reads back, into whatever pieces the bytes are cut on
the way. Values whose text is a word come back as tokens (`tokens_read_back`), and texts without a
line feed as lines (`lines_read_back`). `Same` is how values compare that were made apart: the bytes
of a text may be held in different buffers.
-/

namespace Teletype

/-- The same value: integers and truth values are equal, texts compare as equal. -/
inductive Value.Same : Value → Value → Prop where
  | int {n} :
    Same (.int n) (.int n)
  | bool {b} :
    Same (.bool b) (.bool b)
  | text {t u : Text} :
    (t == u) = true →
    t.length = u.length →
    Same (.text t) (.text u)

/-- A well-formed text is the same value as the text of its characters. -/
lemma Text.WellFormed.same {t : Text} (wf : t.WellFormed) :
    Value.Same (.text t) (.text (Text.ofString (String.ofList t.toList))) := by
  rw [Text.ofString_eq, String.toList_ofList]
  exact .text (wf.beq (wellFormed_ofChars _) (toList_ofChars _).symm) wf.counted

namespace Scanner

/-! ## Words and lines in front -/

/-- A character that is a blank. -/
def isBlankChar (c : Char) : Bool :=
  c == ' ' || c == '\t' || c == '\n' || c == '\x0C' || c == '\r'

/-- A byte is a blank just when the character of the same number is. -/
lemma isBlank_eq {c : Char} {b : UInt8} (same : c.toNat = b.toNat) :
    isBlank b = isBlankChar c := by
  have single : ∀ (n : UInt8) (d : Char), d.toNat = n.toNat → (b == n) = (c == d) := by
    intro n d h
    rw [Bool.eq_iff_iff, beq_iff_eq, beq_iff_eq, ← UInt8.toNat_inj, ← Char.toNat_inj, same, h]
  rw [isBlank, isBlankChar, single 0x20 ' ' rfl, single 0x09 '\t' rfl, single 0x0A '\n' rfl,
    single 0x0C '\x0C' rfl, single 0x0D '\r' rfl]

/-- Characters that are no blanks have no blanks among their bytes. -/
lemma solid_encode {cs : List Char} (solid : ∀ c ∈ cs, isBlankChar c = false) :
    ∀ b ∈ Utf8.encode cs, isBlank b = false := by
  intro b mem
  by_contra blank
  have low : b.toNat < 0x80 := by
    simp only [isBlank, Bool.not_eq_false, Bool.or_eq_true, beq_iff_eq] at blank
    rcases blank with (((rfl | rfl) | rfl) | rfl) | rfl <;> decide
  obtain ⟨c, hc, same⟩ := Utf8.exists_of_mem_encode low mem
  exact blank ((isBlank_eq same).trans (solid c hc))

/-- No digit is a blank. -/
lemma isBlankChar_of_isDigit {c : Char} (digit : c.isDigit = true) : isBlankChar c = false := by
  by_contra blank
  simp only [isBlankChar, Bool.not_eq_false, Bool.or_eq_true, beq_iff_eq] at blank
  rcases blank with (((rfl | rfl) | rfl) | rfl) | rfl <;> exact absurd digit (by decide)

/-- Characters that are no blanks make a word. -/
lemma isWord_encode {cs : List Char} (some : cs ≠ []) (solid : ∀ c ∈ cs, isBlankChar c = false) :
    IsWord (Utf8.encode cs) :=
  ⟨Utf8.encode_ne_nil some, solid_encode solid⟩

/-- Line endings are blanks. -/
lemma blank_of_ending {ending : LineEnding} : ∀ b ∈ ending.bytes, isBlank b = true := by
  cases ending <;> simp [LineEnding.bytes, isBlank]

/-- A line ending ends a word. -/
lemma stop_of_ending (ending : LineEnding) (rest : List UInt8) :
    ∀ b ∈ (ending.bytes ++ rest).head?, isBlank b = true := by
  intro b mem
  cases ending <;> (cases mem; rfl)

/-- A word on a line of its own is the first word. -/
lemma words_line {word : List UInt8} (is : IsWord word) (ending : LineEnding)
    (rest : List UInt8) : words (word ++ ending.bytes ++ rest) = word :: words rest := by
  rw [List.append_assoc, words_word_append is.some is.solid (stop_of_ending ending rest),
    words_blanks_append blank_of_ending]

/-- The first line is the one in front of the first line ending. -/
lemma Flat.line_append {bytes : List UInt8} {ending : LineEnding} (free : lf ∉ bytes)
    (last : ending = .lf → bytes.getLast? ≠ some cr) (rest : List UInt8) :
    Flat.line (bytes ++ ending.bytes ++ rest) = ⟨.ok (.bytes bytes), bytes ++ ending.bytes⟩ := by
  cases ending with
  | lf =>
    have found := Flat.line_feed free rest
    rw [withoutReturn, if_neg (last rfl)] at found
    simpa [LineEnding.bytes] using found
  | crlf =>
    have free' : lf ∉ bytes ++ [cr] := by simpa [show lf ≠ cr by decide] using free
    have found := Flat.line_feed free' rest
    rw [withoutReturn_concat] at found
    simpa [LineEnding.bytes] using found

end Scanner

namespace Console

open Scanner (isBlank isBlankChar words)

/-! ## Lines on a sink -/

/-- The bytes of a value on a line. -/
def line (ending : LineEnding) (v : Value) : List UInt8 :=
  v.render ++ ending.bytes

/-- Writes each value on a line. -/
def writeLines (vs : List Value) : List Operation :=
  vs.map .writeLine

/-- On a sink that makes progress a buffer is brought out, also when a flush fails behind it. -/
lemma Emits.accepted {bytes c result} (em : Emits bytes c result) (progress : c.sink.Progresses) :
    (Result.state result).sink.accepted = c.sink.accepted ++ bytes ∧
      (Result.state result).sink.Progresses := by
  have flushed : ∀ {t r}, Sink.Writes bytes c.sink (.ok () t) → Sink.Flushes t r →
      (Result.state r).accepted = c.sink.accepted ++ bytes ∧ (Result.state r).Progresses := by
    intro t r wr fl
    obtain ⟨_, same, progress, _⟩ := wr.progresses progress
    cases same
    exact ⟨fl.accepted.trans wr.accepted, fl.progresses progress⟩
  cases em with
  | written off wr =>
    obtain ⟨_, same, progress, _⟩ := wr.progresses progress
    cases same
    exact ⟨wr.accepted, progress⟩
  | flushed on wr fl => exact flushed wr fl
  | cut wr =>
    obtain ⟨_, same, _⟩ := wr.progresses progress
    cases same
  | unflushed on wr fl => exact flushed wr fl

/-- On a sink that makes progress all of a buffer is accepted. -/
lemma Carried.accepted {c op bytes outcome d} (cr : Carried c op outcome d)
    (buffer : op.buffer? c.config = some bytes) (progress : c.sink.Progresses) :
    d.sink.accepted = c.sink.accepted ++ bytes ∧ d.sink.Progresses := by
  cases cr with
  | read => cases buffer
  | emit same em =>
    cases same.symm.trans buffer
    exact em.accepted progress
  | flush => cases buffer

/-- On a sink that makes progress all of the lines are accepted. -/
lemma afterAll_writeLines (vs : List Value) {c : Console} (progress : c.sink.Progresses) :
    (afterAll (writeLines vs) c).sink.accepted =
      c.sink.accepted ++ vs.flatMap (line c.config.lineEnding) := by
  induction vs generalizing c with
  | nil => exact (List.append_nil _).symm
  | cons v vs ih =>
    have carried := step_carried (.writeLine v) c
    obtain ⟨accepted, progress⟩ := carried.accepted rfl progress
    have more := ih progress
    rw [accepted, carried.config, List.append_assoc] at more
    exact more

/-- A fresh sink that makes progress holds just the lines. -/
lemma accepted_writeLines (vs : List Value) {c : Console} (fresh : c.sink.log = [])
    (progress : c.sink.Progresses) :
    (afterAll (writeLines vs) c).sink.accepted = vs.flatMap (line c.config.lineEnding) := by
  rw [afterAll_writeLines vs progress, Sink.accepted_of_fresh fresh, List.nil_append]

/-! ## Tokens -/

/-- A value that a read of the kind gives back. -/
inductive TokenKind.Returns : TokenKind → Value → Prop where
  | int {n} :
    Returns .int (.int n)
  | bool {b} :
    Returns .bool (.bool b)
  | string {t : Text} :
    t.WellFormed →
    t.toList ≠ [] →
    (∀ c ∈ t.toList, isBlankChar c = false) →
    Returns .string (.text t)

namespace TokenKind.Returns

variable {k : TokenKind} {v : Value}

/-- What is written of such a value is text that is a word and denotes the value. -/
lemma chars (rt : k.Returns v) : ∃ cs, v.render = Utf8.encode cs ∧ cs ≠ [] ∧
    (∀ c ∈ cs, isBlankChar c = false) ∧ ∃ u, k.value? cs = some u ∧ v.Same u := by
  cases rt with
  | @int n =>
    refine ⟨_, rfl, Integer.write_ne_nil n, ?_, .int n, ?_, .int⟩
    · intro c mem
      rcases Integer.mem_write mem with rfl | digit
      · rfl
      · exact Scanner.isBlankChar_of_isDigit digit
    · exact congrArg (Option.map Value.int) (Integer.read?_write n)
  | @bool b =>
    refine ⟨_, rfl, ?_, ?_, .bool b, ?_, .bool⟩
    · cases b <;> decide
    · cases b <;> simp [Boolean.write, isBlankChar]
    · cases b <;> rfl
  | @string t wf some solid => exact ⟨t.toList, wf.utf8, some, solid, _, rfl, wf.same⟩

/-- A value that is given back is written as a word. -/
lemma isWord (rt : k.Returns v) : Scanner.IsWord v.render := by
  obtain ⟨cs, text, some, solid, _⟩ := rt.chars
  rw [text]
  exact Scanner.isWord_encode some solid

/-- The word of a value that is given back is answered with the same value. -/
lemma answer (rt : k.Returns v) : ∃ u, k.answer (some v.render) = .ok (some u) ∧ v.Same u := by
  obtain ⟨cs, text, _, _, u, value, same⟩ := rt.chars
  have judged : k.judge v.render = .ok u := judge_eq_ok_iff.mpr ⟨cs, text, value⟩
  exact ⟨u, answer_eq_ok_iff.mpr judged, same⟩

end TokenKind.Returns

/-- Values that are words are the words of their lines. -/
lemma words_flatMap_line {vs : List Value} (are : ∀ v ∈ vs, Scanner.IsWord v.render)
    (ending : LineEnding) : words (vs.flatMap (line ending)) = vs.map Value.render := by
  induction vs with
  | nil => rfl
  | cons v vs ih =>
    obtain ⟨is, are⟩ := List.forall_mem_cons.mp are
    rw [List.flatMap_cons, line, Scanner.words_line is, ih are, List.map_cons]

/-- The words of the lines are the texts of the values. -/
lemma words_lines {kinds : List TokenKind} {vs : List Value}
    (returns : List.Forall₂ TokenKind.Returns kinds vs) (ending : LineEnding) :
    words (vs.flatMap (line ending)) = vs.map Value.render := by
  refine words_flatMap_line ?_ ending
  induction returns with
  | nil => simp
  | cons rt _ ih => exact List.forall_mem_cons.mpr ⟨rt.isWord, ih⟩

/-- The answers to the words of the values are the values, and behind them it is the end. -/
lemma answers_of_returns {kinds : List TokenKind} {vs : List Value}
    (returns : List.Forall₂ TokenKind.Returns kinds vs) (next : TokenKind) :
    ∃ us, List.Forall₂ Value.Same vs us ∧
      ((kinds ++ [next]).mapIdx fun i k => k.answer (vs.map Value.render)[i]?) =
        us.map (fun u => .ok (some u)) ++ [.error (.error .endOfInput)] := by
  induction returns with
  | nil => exact ⟨[], .nil, rfl⟩
  | cons rt returns ih =>
    obtain ⟨u, answer, same⟩ := rt.answer
    obtain ⟨us, sames, answers⟩ := ih
    refine ⟨u :: us, .cons same sames, ?_⟩
    rw [List.cons_append, List.mapIdx_cons]
    exact congrArg₂ List.cons answer answers

/-- Values that are words, written on lines to any sink that makes progress, are read back in order
from the bytes accepted, however these are cut and interrupted; then it is the end. -/
theorem tokens_read_back (kinds : List TokenKind) (vs : List Value)
    (returns : List.Forall₂ TokenKind.Returns kinds vs) (c : Console) (fresh : c.sink.log = [])
    (progress : c.sink.Progresses) (events : List Event) (calm : ∀ e ∈ events, e.Calm)
    (cut : events.flatMap Event.bytes = (afterAll (writeLines vs) c).sink.accepted)
    (sink : Sink) (willing : sink.Willing) (config : Config) (next : TokenKind) :
    ∃ us, List.Forall₂ Value.Same vs us ∧
      (session (Console.reads (kinds ++ [next])) ⟨.ofEvents events, sink, config⟩).map
          Step.outcome =
        us.map (fun u => .ok (some u)) ++ [.error (.error .endOfInput)] := by
  obtain ⟨us, sames, answers⟩ := answers_of_returns returns next
  refine ⟨us, sames, ?_⟩
  have calm' : (Source.ofEvents events).Calm := calm
  have unread : (Source.ofEvents events).unread = vs.flatMap (line c.config.lineEnding) :=
    cut.trans (accepted_writeLines vs fresh progress)
  rw [session_reads (kinds ++ [next]) calm' willing, unread, words_lines returns, answers]

/-- The least integer, a truth value and a text with a character of two bytes, written in short
pieces and cut within the integer, a line ending and that character. -/
theorem tokens_read_back_cut :
    let kinds : List TokenKind := [.int, .bool, .string]
    let vs : List Value := [.int (-2147483648), .bool true, .text (.ofString "né")]
    let again : Fault := ⟨.interrupted, "again"⟩
    let c : Console := ⟨{}, { writes := [.atMost 3, .fault again] }, { lineEnding := .crlf }⟩
    let events := [Event.data 0x2D [0x32, 0x31, 0x34, 0x37, 0x34], .data 0x38 [0x33, 0x36, 0x34],
      .data 0x38 [0x0D], .fault again, .data 0x0A [0x74, 0x72, 0x75, 0x65, 0x0D, 0x0A, 0x6E, 0xC3],
      .data 0xA9 [0x0D, 0x0A]]
    List.Forall₂ TokenKind.Returns kinds vs ∧ c.sink.Progresses ∧ (∀ e ∈ events, e.Calm) ∧
      events.flatMap Event.bytes = (afterAll (writeLines vs) c).sink.accepted ∧
      ∃ us, List.Forall₂ Value.Same vs us ∧
        (session (Console.reads (kinds ++ [.int])) ⟨.ofEvents events, {}, {}⟩).map Step.outcome =
          us.map (fun u => .ok (some u)) ++ [.error (.error .endOfInput)] := by
  intro kinds vs again c events
  have text : TokenKind.string.Returns (.text (.ofString "né")) := by
    rw [Text.ofString_eq]
    exact .string (Text.wellFormed_ofChars _) (by simp) (by simp [isBlankChar])
  have returns : List.Forall₂ TokenKind.Returns kinds vs :=
    .cons .int (.cons .bool (.cons text .nil))
  have progress : c.sink.Progresses := by
    simp only [Sink.Progresses, c, List.forall_mem_cons]
    exact ⟨.some (by decide), .again rfl, by simp⟩
  have calm : ∀ e ∈ events, e.Calm := by
    simp only [events, List.forall_mem_cons]
    exact ⟨.data, .data, .data, .interruption rfl, .data, .data, by simp⟩
  have cut : events.flatMap Event.bytes = (afterAll (writeLines vs) c).sink.accepted := by
    rw [accepted_writeLines vs rfl progress]
    cbv
  exact ⟨returns, progress, calm, cut,
    tokens_read_back kinds vs returns c rfl progress events calm cut {} (by simp [Sink.Willing]) {}
      .int⟩

/-! ## Lines -/

/-- A text that a line can hold: it has no line feed in it, and no carriage return at its end where
that would count as part of the line's own. -/
structure FitsLine (ending : LineEnding) (t : Text) : Prop where
  wellFormed : t.WellFormed
  noFeed : '\n' ∉ t.toList
  noReturn : ending = .lf → t.toList.getLast? ≠ some '\r'

/-- What a line can hold, in terms of bytes. -/
lemma FitsLine.bytes {ending t} (fits : FitsLine ending t) :
    Scanner.lf ∉ t.bytes ∧ (ending = .lf → t.bytes.getLast? ≠ some Scanner.cr) := by
  have char : ∀ (c : Char) (b : UInt8) (d : Char), d.toNat = b.toNat → c.toNat = b.toNat → c = d :=
    fun c b d hd hc => Char.toNat_inj.mp (hc.trans hd.symm)
  rw [fits.wellFormed.utf8]
  constructor
  · intro mem
    obtain ⟨c, hc, same⟩ := Utf8.exists_of_mem_encode (by decide) mem
    obtain rfl : c = '\n' := char c _ _ rfl same
    exact fits.noFeed hc
  · intro lf last
    obtain ⟨c, hc, same⟩ := Utf8.exists_of_getLast?_encode (by decide) last
    obtain rfl : c = '\r' := char c _ _ rfl same
    exact fits.noReturn lf hc

/-- A read of a line decodes the line of the source. -/
lemma reader_line (s : Source) :
    Result.outcome (lineReader s) =
        (Result.outcome (Scanner.line .twice s)).bind TokenKind.string.judge ∧
      Result.state (lineReader s) = Result.state (Scanner.line .twice s) := by
  simp only [lineReader, bind, EStateM.bind]
  cases Scanner.line .twice s with
  | error e t => exact ⟨rfl, rfl⟩
  | ok line t =>
    simp only [Result.outcome, Except.bind, TokenKind.judge]
    cases Utf8.decode? line with
    | some cs => exact ⟨rfl, rfl⟩
    | none => exact ⟨rfl, rfl⟩

/-- A read of a line that is not held off takes the first line of the flat data. -/
lemma step_line {c : Console} (calm : c.source.Calm) (willing : c.sink.Willing)
    (found : Outcome (List UInt8)) {taken : List UInt8}
    (flat : Scanner.Flat.line c.source.unread = ⟨found.map Scanner.Item.bytes, taken⟩) :
    (Step.of (.read .line) c).outcome = (found.bind TokenKind.string.judge).map some ∧
      c.source.Consumes taken (Step.of (.read .line) c).after.source := by
  obtain ⟨outcome, source⟩ := (read_reads .line c).free (held?_of_willing willing)
  obtain ⟨judged, rest⟩ := reader_line c.source
  obtain ⟨passed, same⟩ := (Scanner.line_lines .twice c.source).calm calm
  rw [flat] at passed same
  have line : Result.outcome (Scanner.line .twice c.source) = found := by
    generalize Result.outcome (Scanner.line .twice c.source) = result at same
    cases result <;> cases found <;> cases same <;> rfl
  change Result.outcome (read .line c) = Result.outcome (lineReader c.source) at outcome
  change (Result.state (read .line c)).source = Result.state (lineReader c.source) at source
  simp only [Step.of, perform, Result.outcome_map, Result.state_map]
  rw [outcome, judged, source, rest, line]
  exact ⟨rfl, passed⟩

/-- The bytes of a text are judged to be the text of its characters. -/
lemma judge_text {t : Text} (wf : t.WellFormed) : TokenKind.string.judge t.bytes =
    .ok (.text (Text.ofString (String.ofList t.toList))) :=
  TokenKind.judge_eq_ok_iff.mpr ⟨t.toList, wf.utf8, rfl⟩

/-- From any calm source the reads take the lines one by one. What is unread carries the
induction. -/
lemma session_lines {ending : LineEnding} {ts : List Text} (fits : ∀ t ∈ ts, FitsLine ending t)
    {c : Console} (calm : c.source.Calm) (willing : c.sink.Willing)
    (unread : c.source.unread = (ts.map .text).flatMap (line ending)) :
    ∃ us, List.Forall₂ Value.Same (ts.map .text) us ∧
      (session (List.replicate (ts.length + 1) (.read .line)) c).map Step.outcome =
        us.map (fun u => .ok (some u)) ++ [.error (.error .endOfInput)] := by
  induction ts generalizing c with
  | nil =>
    have flat : Scanner.Flat.line c.source.unread = ⟨.error (.error .endOfInput), []⟩ := by
      rw [unread]
      rfl
    have ended := (step_line calm willing (.error _) flat).1
    exact ⟨[], .nil, congrArg (· :: []) ended⟩
  | cons t ts ih =>
    obtain ⟨fit, fits⟩ := List.forall_mem_cons.mp fits
    have data : c.source.unread =
        t.bytes ++ ending.bytes ++ (ts.map .text).flatMap (line ending) := unread
    have flat := Scanner.Flat.line_append fit.bytes.1 fit.bytes.2
      ((ts.map .text).flatMap (line ending))
    rw [← data] at flat
    obtain ⟨outcome, passed⟩ := step_line calm willing (.ok _) flat
    -- the line in front is used up, and the source stands at the others
    have rest := List.append_cancel_left (passed.unread.symm.trans data)
    obtain ⟨us, sames, outcomes⟩ := ih fits (passed.calm calm) (willing_after .line willing) rest
    refine ⟨_ :: us, .cons fit.wellFormed.same sames, ?_⟩
    rw [Except.bind, judge_text fit.wellFormed] at outcome
    exact congrArg₂ List.cons outcome outcomes

/-- Texts that lines can hold, written on lines to any sink that makes progress, are read back in
order from the bytes accepted, however these are cut and interrupted; then it is the end. -/
theorem lines_read_back (c : Console) (ts : List Text)
    (fits : ∀ t ∈ ts, FitsLine c.config.lineEnding t) (fresh : c.sink.log = [])
    (progress : c.sink.Progresses) (events : List Event) (calm : ∀ e ∈ events, e.Calm)
    (cut : events.flatMap Event.bytes =
      (afterAll (writeLines (ts.map .text)) c).sink.accepted)
    (sink : Sink) (willing : sink.Willing) (config : Config) :
    ∃ us, List.Forall₂ Value.Same (ts.map .text) us ∧
      (session (List.replicate (ts.length + 1) (.read .line))
          ⟨.ofEvents events, sink, config⟩).map Step.outcome =
        us.map (fun u => .ok (some u)) ++ [.error (.error .endOfInput)] := by
  have calm' : (Source.ofEvents events).Calm := calm
  exact session_lines fits calm' willing (cut.trans (accepted_writeLines _ fresh progress))

/-- An empty line, one that ends in a carriage return of its own, and one cut in its line ending. -/
theorem lines_read_back_cut :
    let ts : List Text := [.ofString "", .ofString "a\r", .ofString "b\rc"]
    let c : Console := ⟨{}, { writes := [.atMost 1, .atMost 2] }, { lineEnding := .crlf }⟩
    let events := [Event.data 0x0D [0x0A, 0x61, 0x0D], .data 0x0D [0x0A, 0x62, 0x0D, 0x63, 0x0D],
      .data 0x0A []]
    (∀ t ∈ ts, FitsLine c.config.lineEnding t) ∧ c.sink.Progresses ∧ (∀ e ∈ events, e.Calm) ∧
      events.flatMap Event.bytes = (afterAll (writeLines (ts.map .text)) c).sink.accepted ∧
      ∃ us, List.Forall₂ Value.Same (ts.map .text) us ∧
        (session (List.replicate 4 (.read .line)) ⟨.ofEvents events, {}, {}⟩).map Step.outcome =
          us.map (fun u => .ok (some u)) ++ [.error (.error .endOfInput)] := by
  intro ts c events
  have fit : ∀ s : String, '\n' ∉ s.toList → FitsLine .crlf (.ofString s) := by
    intro s free
    rw [Text.ofString_eq]
    exact ⟨Text.wellFormed_ofChars _, by simpa using free, nofun⟩
  have fits : ∀ t ∈ ts, FitsLine c.config.lineEnding t := by
    simp only [ts, List.forall_mem_cons]
    exact ⟨fit _ (by decide), fit _ (by decide), fit _ (by decide), by simp⟩
  have progress : c.sink.Progresses := by
    simp only [Sink.Progresses, c, List.forall_mem_cons]
    exact ⟨.some (by decide), .some (by decide), by simp⟩
  have calm : ∀ e ∈ events, e.Calm := by
    simp only [events, List.forall_mem_cons]
    exact ⟨.data, .data, .data, by simp⟩
  have cut : events.flatMap Event.bytes =
      (afterAll (writeLines (ts.map .text)) c).sink.accepted := by
    rw [accepted_writeLines _ rfl progress]
    cbv
  exact ⟨fits, progress, calm, cut,
    lines_read_back c ts fits rfl progress events calm cut {} (by simp [Sink.Willing]) {}⟩

end Console

end Teletype
