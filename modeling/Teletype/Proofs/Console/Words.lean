import Mathlib
import Teletype.Proofs.Console.Sides
import Teletype.Proofs.Input.Chunking
import Teletype.Proofs.Utf8.Decoding

/-!
# Reading words

The words of data are its longest runs of bytes that are no blanks. On a calm source the reads of
tokens take the words in order, one each, whatever they make of them: `TokenKind.answer` says what a
kind of read answers to a word, and `session_words` that this is all it depends on.
-/

namespace Teletype

namespace Scanner

/-! ## Words -/

/-- The longest runs of bytes that are no blanks, in order. -/
def words (data : List UInt8) : List (List UInt8) :=
  (data.splitOnP isBlank).filter fun word => !word.isEmpty

/-- Words are split at a blank. -/
lemma words_append_blank (front rest : List UInt8) {b : UInt8} (blank : isBlank b = true) :
    words (front ++ b :: rest) = words front ++ words rest := by
  rw [words, List.splitOnP_append_cons front rest blank, List.filter_append, words, words]

/-- Blanks in front add no word. -/
lemma words_blanks_append {blanks : List UInt8} (blank : ∀ b ∈ blanks, isBlank b = true)
    (rest : List UInt8) : words (blanks ++ rest) = words rest := by
  induction blanks with
  | nil => rfl
  | cons b bs ih =>
    obtain ⟨first, more⟩ := List.forall_mem_cons.mp blank
    rw [List.cons_append, ← List.nil_append (b :: _), words_append_blank _ _ first, ih more]
    rfl

/-- Blanks alone hold no word. -/
lemma words_blanks {blanks : List UInt8} (blank : ∀ b ∈ blanks, isBlank b = true) :
    words blanks = [] := by
  have none := words_blanks_append blank []
  rw [List.append_nil] at none
  exact none

/-- A word alone is the only one. -/
lemma words_singleton {word : List UInt8} (some : word ≠ [])
    (solid : ∀ b ∈ word, isBlank b = false) : words word = [word] := by
  have single : word.splitOnP isBlank = [word] :=
    List.splitOnP_eq_singleton fun b mem => by simp [solid b mem]
  rw [words, single]
  simp [some]

/-- A run of bytes that are no blanks is the first word, if it ends at a blank or with the data. -/
lemma words_word_append {word rest : List UInt8} (some : word ≠ [])
    (solid : ∀ b ∈ word, isBlank b = false) (stop : ∀ b ∈ rest.head?, isBlank b = true) :
    words (word ++ rest) = word :: words rest := by
  cases rest with
  | nil => rw [List.append_nil, words_singleton some solid]; rfl
  | cons b bs =>
    have blank : isBlank b = true := stop b rfl
    rw [words_append_blank _ _ blank, words_singleton some solid, ← List.nil_append (b :: bs),
      words_append_blank _ _ blank]
    rfl

/-- The bytes are a word of their own. -/
structure IsWord (word : List UInt8) : Prop where
  some : word ≠ []
  solid : ∀ b ∈ word, isBlank b = false

/-- The data leads with a word behind blanks, and `behind` is the rest of it. -/
structure Leads (data blanks word behind : List UInt8) : Prop where
  split : data = blanks ++ (word ++ behind)
  blank : ∀ b ∈ blanks, isBlank b = true
  some : word ≠ []
  solid : ∀ b ∈ word, isBlank b = false
  stop : ∀ b ∈ behind.head?, isBlank b = true

/-- What leads the data is their first word. -/
lemma Leads.words {data blanks word behind} (ld : Leads data blanks word behind) :
    words data = word :: words behind := by
  rw [ld.split, words_blanks_append ld.blank, words_word_append ld.some ld.solid ld.stop]

/-- What leads the data is a word. -/
lemma Leads.isWord {data blanks word behind} (ld : Leads data blanks word behind) :
    IsWord word :=
  ⟨ld.some, ld.solid⟩

/-- The word that leads the data is told by the data. -/
lemma Leads.unique {data blanks word behind blanks' word' behind'}
    (ld : Leads data blanks word behind) (ld' : Leads data blanks' word' behind') :
    word = word' ∧ behind = behind' := by
  have cut : ∀ {blanks word behind}, Leads data blanks word behind →
      (data.dropWhile isBlank).takeWhile (fun b => !isBlank b) = word ∧
        (data.dropWhile isBlank).dropWhile (fun b => !isBlank b) = behind := by
    intro blanks word behind ld
    have solid : ∀ b ∈ (word ++ behind).head?, isBlank b = false := by
      intro b mem
      rw [List.head?_append_of_ne_nil _ ld.some] at mem
      exact ld.solid b (List.mem_of_mem_head? mem)
    rw [ld.split, (takeWhile_append_stop ld.blank solid).2]
    refine takeWhile_append_stop (fun b mem => ?_) fun b mem => ?_
    · rw [ld.solid b mem, Bool.not_false]
    · rw [ld.stop b mem, Bool.not_true]
  obtain ⟨word_eq, behind_eq⟩ := cut ld
  obtain ⟨word_eq', behind_eq'⟩ := cut ld'
  exact ⟨word_eq.symm.trans word_eq', behind_eq.symm.trans behind_eq'⟩

/-- A word leads the data up to any place behind it. -/
lemma Leads.front {data blanks word front more} (ld : Leads data blanks word (front ++ more)) :
    Leads (blanks ++ (word ++ front)) blanks word front where
  split := rfl
  blank := ld.blank
  some := ld.some
  solid := ld.solid
  stop b mem := by
    cases front with
    | nil => cases mem
    | cons => exact ld.stop b mem

/-- The token of a calm source is its first word. -/
inductive TakesWord (s : Source) : EStateM.Result Failure Source (List UInt8) → Prop where
  | word {blanks word t} :
    s.Consumes (blanks ++ word) t →
    Leads s.unread blanks word t.unread →
    TakesWord s (.ok word t)
  | ended {t} :
    s.Consumes s.unread t →
    (∀ b ∈ s.unread, isBlank b = true) →
    TakesWord s (.error (.error .endOfInput) t)

/-- Every token of a calm source is its first word. -/
lemma token_takesWord {s : Source} (calm : s.Calm) : TakesWord s (token .twice s) := by
  have tk := token_tokens .twice s
  generalize token .twice s = result at tk
  cases tk with
  | @token blanks t run stopped u first second some =>
    obtain ⟨passed, blank⟩ := first.consumes
    obtain ⟨passed', all⟩ := second.consumes
    obtain ⟨_, rest, _⟩ := second.calm (passed.calm calm)
    have solid : ∀ b ∈ run, isBlank b = false := fun b mem => by simpa using all b mem
    -- the run goes as far as it can, so nothing but a blank stands behind it
    have stop : ∀ b ∈ u.unread.head?, isBlank b = true := by
      intro b mem
      have stops := List.head?_dropWhile_not (fun b => !isBlank b) t.unread
      rw [← rest, Option.mem_def.mp mem] at stops
      simpa using stops
    have whole := (passed.trans passed').unread
    rw [List.append_assoc] at whole
    exact .word (passed.trans passed') ⟨whole, blank, some, solid, stop⟩
  | @ended blanks t first =>
    obtain ⟨passed, blank⟩ := first.consumes
    obtain ⟨_, _, stop⟩ := first.calm calm
    have none : t.unread = [] := by simpa using stop
    have all : s.unread = blanks := by rw [passed.unread, none, List.append_nil]
    rw [← all] at passed blank
    exact .ended passed blank
  | before first => exact absurd first (Spans.calm_error calm)
  | inside first second =>
    exact absurd second (Spans.calm_error (first.consumes.1.calm calm))

end Scanner

/-- No flush fails. -/
def Sink.Willing (s : Sink) : Prop :=
  ∀ action ∈ s.flushes, action = .done

/-- Such a sink has no failure for the next flush. -/
lemma Sink.Willing.refusal? {s : Sink} (willing : s.Willing) : s.refusal? = none := by
  obtain ⟨writes, flushes, log⟩ := s
  cases flushes with
  | nil => rfl
  | cons action rest =>
    obtain rfl : action = .done := willing action List.mem_cons_self
    rfl

/-- Such a sink stays so behind a flush. -/
lemma Sink.Willing.flushed {s : Sink} (willing : s.Willing) (call : Call) :
    (s.flushed call).Willing :=
  fun action mem => willing action (List.mem_of_mem_tail mem)

namespace Console

/-- No read is held off by a sink whose flushes do not fail. -/
lemma held?_of_willing {c : Console} (willing : c.sink.Willing) : c.held? = none := by
  unfold Console.held?
  rw [willing.refusal?, ite_self]

/-- A read leaves a sink whose flushes do not fail. -/
lemma willing_after (kind : Kind) {c : Console} (willing : c.sink.Willing) :
    (Step.of (.read kind) c).after.sink.Willing := by
  have sides := step_keepsSides (.read kind) c
  cases on : c.config.flushBeforeRead with
  | true =>
    obtain ⟨call, _, _, sink⟩ := sides.flushed rfl on
    rw [sink]
    exact willing.flushed call
  | false =>
    rw [sides.bare rfl on]
    exact willing

/-! ## Reading words as values -/

namespace TokenKind

/-- What a kind of read makes of a word: the value of its text, or an error that shows the word. -/
def judge (k : TokenKind) (word : List UInt8) : Outcome Value :=
  match (Utf8.decode? word).bind k.value? with
  | some v => .ok v
  | none => .error (.error (.format k.expected (String.ofList (Utf8.decodeReplacing word))))

/-- A word is read just when it is text that denotes a value. -/
lemma judge_eq_ok_iff {k : TokenKind} {word : List UInt8} {v : Value} :
    k.judge word = .ok v ↔ ∃ cs, word = Utf8.encode cs ∧ k.value? cs = some v := by
  simp only [← Utf8.decode?_eq_some_iff]
  rw [← Option.bind_eq_some_iff, judge]
  cases (Utf8.decode? word).bind k.value? <;> simp

/-- The answer to a read of a kind that finds a word, or none. -/
def answer (k : TokenKind) : Option (List UInt8) → Outcome (Option Value)
  | some word => (k.judge word).map some
  | none => .error (.error .endOfInput)

/-- A word is answered with the value that it is judged to be. -/
lemma answer_eq_ok_iff {k : TokenKind} {word : List UInt8} {v : Value} :
    k.answer (some word) = .ok (some v) ↔ k.judge word = .ok v := by
  rw [answer]
  cases k.judge word <;> simp [Except.map]

/-- A word that is judged to be no value is answered with an error that shows it. -/
lemma answer_of_ne_ok {k : TokenKind} {word : List UInt8} (none : ∀ v, k.judge word ≠ .ok v) :
    k.answer (some word) =
      .error (.error (.format k.expected (String.ofList (Utf8.decodeReplacing word)))) := by
  unfold judge at none
  rw [answer, judge]
  cases value : (Utf8.decode? word).bind k.value? with
  | some v => exact absurd (by rw [value]) (none v)
  | none => rfl

end TokenKind

/-- Reading a value of the kind is judging the token of the source. -/
lemma reader_token (k : TokenKind) (s : Source) :
    Result.outcome (k.kind.reader s) = (Result.outcome (Scanner.token .twice s)).bind k.judge ∧
      Result.state (k.kind.reader s) = Result.state (Scanner.token .twice s) := by
  have same : k.kind.reader = tokenReader k.expected k.value? := by cases k <;> rfl
  rw [same]
  simp only [tokenReader, bind, EStateM.bind]
  cases Scanner.token .twice s with
  | error e t => exact ⟨rfl, rfl⟩
  | ok word t =>
    simp only [Result.outcome, Except.bind, TokenKind.judge]
    cases (Utf8.decode? word).bind k.value? with
    | some v => exact ⟨rfl, rfl⟩
    | none => exact ⟨rfl, rfl⟩

/-- A read of a token that is not held off judges the token of the source. -/
lemma step_token (k : TokenKind) {c : Console} (free : c.held? = none) :
    (Step.of (.read k.kind) c).outcome =
        ((Result.outcome (Scanner.token .twice c.source)).bind k.judge).map some ∧
      (Step.of (.read k.kind) c).after.source = Result.state (Scanner.token .twice c.source) := by
  obtain ⟨outcome, source⟩ := (read_reads k.kind c).free free
  obtain ⟨judged, rest⟩ := reader_token k c.source
  simp only [Step.of, perform, Result.outcome_map, Result.state_map]
  rw [outcome, judged, source, rest]
  exact ⟨rfl, rfl⟩

/-- A read takes the first word of the data, or finds that there is none. -/
inductive ReadsWord (k : TokenKind) (data : List UInt8) (step : Step) : Prop where
  | word {blanks word} :
    Scanner.Leads data blanks word step.after.source.unread →
    step.outcome = k.answer (some word) →
    ReadsWord k data step
  | ended :
    Scanner.words data = [] →
    step.after.source.unread = [] →
    step.outcome = k.answer none →
    ReadsWord k data step

/-- On a calm source every read takes a word. -/
lemma step_readsWord (k : TokenKind) {c : Console} (calm : c.source.Calm)
    (willing : c.sink.Willing) :
    ReadsWord k c.source.unread (Step.of (.read k.kind) c) ∧
      (Step.of (.read k.kind) c).after.source.Calm := by
  obtain ⟨outcome, source⟩ := step_token k (held?_of_willing willing)
  have tw := Scanner.token_takesWord calm
  generalize Scanner.token .twice c.source = result at tw outcome source
  cases tw with
  | @word blanks word t passed ld =>
    have rest : (Step.of (.read k.kind) c).after.source = t := source
    rw [← rest] at passed ld
    exact ⟨.word ld outcome, passed.calm calm⟩
  | @ended t passed blank =>
    have rest : (Step.of (.read k.kind) c).after.source = t := source
    rw [← rest] at passed
    have none := passed.unread
    rw [List.self_eq_append_right] at none
    exact ⟨.ended (Scanner.words_blanks blank) none outcome, passed.calm calm⟩

/-- The word that leads the data is the one that a read answers to. -/
lemma step_of_leads (k : TokenKind) {c : Console} (calm : c.source.Calm)
    (willing : c.sink.Willing) {blanks word behind}
    (ld : Scanner.Leads c.source.unread blanks word behind) :
    (Step.of (.read k.kind) c).outcome = k.answer (some word) ∧
      (Step.of (.read k.kind) c).after.source.unread = behind := by
  obtain ⟨first, _⟩ := step_readsWord k calm willing
  cases first with
  | word ld' outcome =>
    obtain ⟨rfl, rfl⟩ := ld.unique ld'
    exact ⟨outcome, rfl⟩
  | ended none _ _ => exact absurd (none.symm.trans ld.words) (List.cons_ne_nil _ _).symm

/-- A read for each of the kinds. -/
def reads (kinds : List TokenKind) : List Operation :=
  kinds.map fun k => .read k.kind

/-- From any calm source the reads answer to the words one by one. What is unread carries the
induction. -/
lemma session_reads (kinds : List TokenKind) {c : Console} (calm : c.source.Calm)
    (willing : c.sink.Willing) :
    (session (reads kinds) c).map Step.outcome =
      kinds.mapIdx fun i k => k.answer (Scanner.words c.source.unread)[i]? := by
  induction kinds generalizing c with
  | nil => rfl
  | cons k ks ih =>
    obtain ⟨first, calm'⟩ := step_readsWord k calm willing
    have more := ih calm' (willing_after k.kind willing)
    simp only [reads, List.map_cons, session, List.mapIdx_cons] at more ⊢
    rw [more]
    cases first with
    | word ld outcome => rw [ld.words, outcome]; rfl
    | ended none empty outcome => rw [none, empty, outcome]; rfl

/-- The data behind word number `i` begins right where the word ends. -/
structure Behind (data : List UInt8) (i : Nat) (word behind : List UInt8) : Prop where
  split : ∃ front, data = front ++ word ++ behind ∧
    Scanner.words front = (Scanner.words data).take i
  later : Scanner.words behind = (Scanner.words data).drop (i + 1)
  stop : ∀ b ∈ behind.head?, Scanner.isBlank b = true

/-- The data behind the first word begins where it ends. -/
lemma behind_first {data blanks word behind}
    (ld : Scanner.Leads data blanks word behind) : Behind data 0 word behind where
  split := ⟨blanks, by rw [ld.split, List.append_assoc], Scanner.words_blanks ld.blank⟩
  later := by rw [ld.words]; rfl
  stop := ld.stop

/-- A word that leads the data moves the others one place on. -/
lemma behind_next {data blanks first rest word behind i}
    (ld : Scanner.Leads data blanks first rest) (bh : Behind rest i word behind) :
    Behind data (i + 1) word behind := by
  obtain ⟨⟨front, split, taken⟩, later, stop⟩ := bh
  have more : rest = front ++ (word ++ behind) := by rw [split, List.append_assoc]
  refine ⟨⟨blanks ++ (first ++ front), ?_, ?_⟩, ?_, stop⟩
  · rw [ld.split, more]
    simp only [List.append_assoc]
  · rw [ld.words, List.take_succ_cons, ← taken]
    exact (more ▸ ld).front.words
  · rw [ld.words]
    exact later

/-- From any calm source each read that finds a word stops behind it. -/
lemma session_behind (kinds : List TokenKind) {c : Console} (calm : c.source.Calm)
    (willing : c.sink.Willing) {i : Nat} {step word}
    (step_i : (session (reads kinds) c)[i]? = some step)
    (word_i : (Scanner.words c.source.unread)[i]? = some word) :
    Behind c.source.unread i word step.after.source.unread := by
  induction kinds generalizing c i with
  | nil => cases step_i
  | cons k ks ih =>
    obtain ⟨first, calm'⟩ := step_readsWord k calm willing
    cases first with
    | ended none empty outcome =>
      rw [none] at word_i
      cases word_i
    | word ld outcome =>
      rw [ld.words] at word_i
      cases i with
      | zero =>
        cases step_i
        cases word_i
        exact behind_first ld
      | succ i => exact behind_next ld (ih calm' (willing_after k.kind willing) step_i word_i)

/-- Whatever kinds of tokens are read, and whatever becomes of the reads before, read number `i`
answers to word number `i` of the data and stops right behind it; behind the last word it is the end
of the input. So it matters to no read which kind another one is of. -/
theorem session_words (data : List UInt8) (events : List Event) (calm : ∀ e ∈ events, e.Calm)
    (cut : events.flatMap Event.bytes = data) (sink : Sink) (willing : sink.Willing)
    (config : Config) (kinds : List TokenKind) :
    let c : Console := ⟨.ofEvents events, sink, config⟩
    let steps := session (reads kinds) c
    steps.map Step.outcome = (kinds.mapIdx fun i k => k.answer (Scanner.words data)[i]?) ∧
      (∀ i step word, steps[i]? = some step → (Scanner.words data)[i]? = some word →
        Behind data i word step.after.source.unread) ∧
      ∀ i j other, i ≠ j →
        ((session (reads (kinds.set j other)) c).map Step.outcome)[i]? =
          (steps.map Step.outcome)[i]? := by
  intro c steps
  have unread : c.source.unread = data := cut
  have calm' : c.source.Calm := calm
  have answers : ∀ kinds, (session (reads kinds) c).map Step.outcome =
      kinds.mapIdx fun i k => k.answer (Scanner.words data)[i]? := by
    intro kinds
    rw [← unread]
    exact session_reads kinds calm' willing
  refine ⟨answers kinds, ?_, ?_⟩
  · intro i step word step_i word_i
    rw [← unread] at word_i ⊢
    exact session_behind kinds calm' willing step_i word_i
  · intro i j other apart
    -- the answer to a read depends on its own kind and its own word
    rw [answers, answers, List.getElem?_mapIdx, List.getElem?_mapIdx,
      List.getElem?_set_ne apart.symm]

/-- A word that is no integer, one cut in two that is, and a read behind the last word. -/
theorem session_words_misread :
    let events := [Event.data 0x34 [0x78, 0x20], .data 0x37 [], .data 0x35 [0x0A]]
    let sink : Sink := { flushes := [.done] }
    let c : Console := ⟨.ofEvents events, sink, {}⟩
    (∀ e ∈ events, e.Calm) ∧
      events.flatMap Event.bytes = [0x34, 0x78, 0x20, 0x37, 0x35, 0x0A] ∧ sink.Willing ∧
      (session (reads [.int, .int, .bool]) c).map Step.outcome =
        [.error (.error (.format "an integer" "4x")), .ok (some (.int 75)),
          .error (.error .endOfInput)] := by
  intro events sink c
  have calm : ∀ e ∈ events, e.Calm := by
    simp only [events, List.forall_mem_cons]
    exact ⟨.data, .data, .data, by simp⟩
  have willing : sink.Willing := fun action mem => List.mem_singleton.mp mem
  refine ⟨calm, rfl, willing, ?_⟩
  exact (session_words _ events calm rfl sink willing {} _).1.trans (by cbv)

end Console

end Teletype
