import Mathlib
import Teletype.Proofs.Binary32.RoundTrip
import Teletype.Proofs.Console.Literals
import Teletype.Proofs.Console.RoundTrip

/-!
# Canonical texts

A value may be read from many texts, and the one that is written of it is read back: a
floating-point number bit for bit, unless it is a NaN (`floats_read_back`). So whatever word a value
is read from, its own text is a word that is written again as it stands (`Settled`).
-/

namespace Teletype

namespace Binary32

/-- The same number: the bits are equal, or both are a NaN. -/
inductive Same : Binary32 → Binary32 → Prop where
  | number {x} :
    x.IsNumber →
    Same x x
  | nan {x y} :
    ¬ x.IsNumber →
    ¬ y.IsNumber →
    Same x y

/-- The same number is written the same way. -/
lemma Same.write {x y} (same : Same x y) : write y = write x := by
  cases same with
  | number => rfl
  | nan nx ny => rw [write_of_not_isNumber nx, write_of_not_isNumber ny]

/-- No number is written with a blank in it. -/
lemma isBlankChar_of_mem_write {x : Binary32} {c : Char} (mem : c ∈ Binary32.write x) :
    Scanner.isBlankChar c = false := by
  rcases mem_write mem with digit | listed
  · exact Scanner.isBlankChar_of_isDigit digit
  · simp only [characters, List.mem_cons, List.not_mem_nil, or_false] at listed
    rcases listed with rfl | rfl | rfl | rfl | rfl | rfl | rfl | rfl | rfl | rfl <;> rfl

/-- What is written of a number reads back as the same number. -/
lemma exists_read?_write (x : Binary32) : ∃ y, read? (Binary32.write x) = some y ∧ Same x y := by
  by_cases number : x.IsNumber
  case pos => exact ⟨x, read?_write number, .number number⟩
  case neg =>
    rw [write_of_not_isNumber number]
    exact ⟨_, read?_nan, .nan number not_isNumber_nan⟩

end Binary32

namespace Console

open Scanner (IsWord words)

namespace TokenKind

/-! ## Floating-point numbers -/

/-- The text of a floating-point number is a word. -/
lemma isWord_float (x : Binary32) : IsWord (Value.float x).render :=
  Scanner.isWord_encode (Binary32.write_ne_nil x) fun _ mem => Binary32.isBlankChar_of_mem_write mem

/-- The text of a floating-point number is judged to be the same number. -/
lemma judge_float (x : Binary32) :
    ∃ y, TokenKind.float.judge (Value.float x).render = .ok (.float y) ∧ Binary32.Same x y := by
  obtain ⟨y, found, same⟩ := Binary32.exists_read?_write x
  exact ⟨y, judge_float_iff.mpr ⟨y, rfl, _, rfl, found⟩, same⟩

end TokenKind

/-- The answers to the words of numbers are the numbers. -/
lemma answers_of_floats (xs : List Binary32) : ∃ ys, List.Forall₂ Binary32.Same xs ys ∧
    ((xs.map fun _ => TokenKind.float).mapIdx fun i k =>
        k.answer ((xs.map Value.float).map Value.render)[i]?) =
      ys.map fun y => .ok (some (.float y)) := by
  induction xs with
  | nil => exact ⟨[], .nil, rfl⟩
  | cons x xs ih =>
    obtain ⟨y, judged, same⟩ := TokenKind.judge_float x
    obtain ⟨ys, sames, answers⟩ := ih
    refine ⟨y :: ys, .cons same sames, ?_⟩
    simp only [List.map_cons, List.mapIdx_cons]
    exact congrArg₂ List.cons (TokenKind.answer_eq_ok_iff.mpr judged) answers

/-- Floating-point numbers of any magnitude and sign, written on lines to a sink that makes
progress, are a word each and are read back bit for bit, however the bytes are cut and interrupted
on the way. The NaNs share one text, which reads back as a NaN. -/
theorem floats_read_back (xs : List Binary32) (c : Console) (fresh : c.sink.log = [])
    (progress : c.sink.Progresses) (events : List Event) (calm : ∀ e ∈ events, e.Calm)
    (cut : events.flatMap Event.bytes = (afterAll (writeLines (xs.map .float)) c).sink.accepted)
    (sink : Sink) (willing : sink.Willing) (config : Config) :
    words (events.flatMap Event.bytes) = xs.map (fun x => (Value.float x).render) ∧
      (∀ x : Binary32, ¬ x.IsNumber → (Value.float x).render = [0x4E, 0x61, 0x4E]) ∧
      ∃ ys, List.Forall₂ Binary32.Same xs ys ∧
        (session (reads (xs.map fun _ => .float)) ⟨.ofEvents events, sink, config⟩).map
            Step.outcome =
          ys.map fun y => .ok (some (.float y)) := by
  have calm' : (Source.ofEvents events).Calm := calm
  have unread : (Source.ofEvents events).unread =
      (xs.map .float).flatMap (line c.config.lineEnding) :=
    cut.trans (accepted_writeLines _ fresh progress)
  have are : ∀ v ∈ xs.map Value.float, IsWord v.render := by
    rw [List.forall_mem_map]
    exact fun x _ => TokenKind.isWord_float x
  have found := words_flatMap_line are c.config.lineEnding
  refine ⟨?_, ?_, ?_⟩
  · rw [cut, accepted_writeLines _ fresh progress, found, List.map_map]
    rfl
  · intro x nan
    rw [Value.render, Binary32.write_of_not_isNumber nan]
    rfl
  · obtain ⟨ys, sames, answers⟩ := answers_of_floats xs
    refine ⟨ys, sames, ?_⟩
    rw [session_reads _ calm' willing, unread, found, answers]

/-- The least number below zero, the largest finite one, an infinity, a NaN and a zero with a sign,
written in short pieces and cut within an exponent, a line ending and a word. -/
theorem floats_read_back_cut :
    let xs : List Binary32 := [⟨0x80000001⟩, ⟨0x7F7FFFFF⟩, ⟨0xFF800000⟩, ⟨0xFFC00001⟩, ⟨0x80000000⟩]
    let again : Fault := ⟨.interrupted, "again"⟩
    let c : Console := ⟨{}, { writes := [.atMost 3, .fault again] }, { lineEnding := .crlf }⟩
    let events := [Event.data 0x2D [0x31, 0x65, 0x2D, 0x34], .data 0x35 [0x0D], .fault again,
      .data 0x0A [0x33, 0x2E, 0x34, 0x30, 0x32, 0x38, 0x32, 0x33, 0x35, 0x65],
      .data 0x33 [0x38, 0x0D, 0x0A, 0x2D, 0x69, 0x6E, 0x66, 0x0D, 0x0A, 0x4E, 0x61],
      .data 0x4E [0x0D, 0x0A, 0x2D, 0x30, 0x2E, 0x30, 0x0D, 0x0A]]
    c.sink.Progresses ∧ (∀ e ∈ events, e.Calm) ∧
      events.flatMap Event.bytes = (afterAll (writeLines (xs.map .float)) c).sink.accepted ∧
      ∃ ys, List.Forall₂ Binary32.Same xs ys ∧
        (session (reads (xs.map fun _ => .float)) ⟨.ofEvents events, {}, {}⟩).map Step.outcome =
          ys.map fun y => .ok (some (.float y)) := by
  intro xs again c events
  have progress : c.sink.Progresses := by
    simp only [Sink.Progresses, c, List.forall_mem_cons]
    exact ⟨.some (by decide), .again rfl, by simp⟩
  have calm : ∀ e ∈ events, e.Calm := by
    simp only [events, List.forall_mem_cons]
    exact ⟨.data, .data, .interruption rfl, .data, .data, .data, by simp⟩
  have cut : events.flatMap Event.bytes =
      (afterAll (writeLines (xs.map .float)) c).sink.accepted := by
    rw [accepted_writeLines _ rfl progress]
    decide +kernel
  exact ⟨progress, calm, cut,
    (floats_read_back xs c rfl progress events calm cut {} (by simp [Sink.Willing]) {}).2.2⟩

/-! ## Settled values -/

/-- The text of the value is a word, from which a read of the kind gives a value of the same
text. -/
structure TokenKind.Settled (k : TokenKind) (v : Value) : Prop where
  isWord : IsWord v.render
  again : ∃ u, k.judge v.render = .ok u ∧ u.render = v.render

namespace TokenKind

/-- The text of an integer is settled. -/
lemma settled_int (n : Int32) : TokenKind.int.Settled (.int n) where
  isWord := Returns.int.isWord
  again := ⟨.int n, judge_int_iff.mpr ⟨n, rfl, _, rfl, Integer.read?_write n⟩, rfl⟩

/-- The text of a floating-point number is settled. -/
lemma settled_float (x : Binary32) : TokenKind.float.Settled (.float x) where
  isWord := isWord_float x
  again := by
    obtain ⟨y, judged, same⟩ := judge_float x
    exact ⟨.float y, judged, congrArg Utf8.encode same.write⟩

/-- The text of a truth value is settled. -/
lemma settled_bool (b : Bool) : TokenKind.bool.Settled (.bool b) where
  isWord := Returns.bool.isWord
  again := ⟨.bool b, judge_bool_iff.mpr ⟨b, rfl, _, rfl, by cases b <;> rfl⟩, rfl⟩

/-- A text is written as the word that it is read from. -/
lemma settled_string {word : List UInt8} {v : Value} (is : IsWord word)
    (judged : TokenKind.string.judge word = .ok v) : TokenKind.string.Settled v := by
  obtain ⟨cs, rfl, value⟩ := judge_eq_ok_iff.mp judged
  have text : v.render = Utf8.encode cs := by
    cases value
    rw [Text.ofString_eq, String.toList_ofList, Value.render, (Text.wellFormed_ofChars cs).utf8,
      Text.toList_ofChars]
  rw [← text] at is judged
  exact ⟨is, v, judged, rfl⟩

/-- What is read from a word is settled. -/
lemma settled_of_judge {k : TokenKind} {word : List UInt8} {v : Value} (is : IsWord word)
    (judged : k.judge word = .ok v) : k.Settled v := by
  cases k with
  | int =>
    obtain ⟨n, rfl, _⟩ := judge_int_iff.mp judged
    exact settled_int n
  | float =>
    obtain ⟨x, rfl, _⟩ := judge_float_iff.mp judged
    exact settled_float x
  | bool =>
    obtain ⟨b, rfl, _⟩ := judge_bool_iff.mp judged
    exact settled_bool b
  | string => exact settled_string is judged

end TokenKind

end Console

end Teletype
