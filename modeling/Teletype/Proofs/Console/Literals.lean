import Mathlib
import Teletype.Proofs.Binary32.Literal
import Teletype.Proofs.Console.Words
import Teletype.Proofs.Literal.Integer

/-!
# Reading numbers

What the reads of numbers make of a word, whatever its bytes are and however they arrive. An integer
is read when the word spells one that fits 32 bits (`readInt_grammar`), a floating-point number when
the word is one of the literals, and then correctly rounded (`readFloat_grammar`). Every other word
is a format error that shows it, and is consumed as well.
-/

namespace Teletype.Console

variable {word : List UInt8}

namespace TokenKind

variable {v : Value}

/-- A kind whose values are made from what is read gives just these. -/
lemma judge_map_iff {α : Type} (k : TokenKind) (read? : List Char → Option α) (make : α → Value)
    (value : ∀ cs, k.value? cs = (read? cs).map make) :
    k.judge word = .ok v ↔ ∃ a, v = make a ∧ ∃ cs, word = Utf8.encode cs ∧ read? cs = some a := by
  simp only [judge_eq_ok_iff, value, Option.map_eq_some_iff]
  constructor
  · rintro ⟨cs, text, a, found, rfl⟩
    exact ⟨a, rfl, cs, text, found⟩
  · rintro ⟨a, rfl, cs, text, found⟩
    exact ⟨cs, text, a, found, rfl⟩

/-- A word is judged to be an integer just when its text denotes one. -/
lemma judge_int_iff : TokenKind.int.judge word = .ok v ↔
    ∃ n, v = .int n ∧ ∃ cs, word = Utf8.encode cs ∧ Integer.read? cs = some n :=
  judge_map_iff _ _ _ fun _ => rfl

/-- A word is judged to be a floating-point number just when its text denotes one. -/
lemma judge_float_iff : TokenKind.float.judge word = .ok v ↔
    ∃ x, v = .float x ∧ ∃ cs, word = Utf8.encode cs ∧ Binary32.read? cs = some x :=
  judge_map_iff _ _ _ fun _ => rfl

/-- A word is judged to be a truth value just when its text denotes one. -/
lemma judge_bool_iff : TokenKind.bool.judge word = .ok v ↔
    ∃ b, v = .bool b ∧ ∃ cs, word = Utf8.encode cs ∧ Boolean.read? cs = some b :=
  judge_map_iff _ _ _ fun _ => rfl

end TokenKind

variable {c : Console} {blanks behind : List UInt8}

/-- Reading an integer from a word gives the integer that the word spells, if it fits 32 bits. A
word that spells none, or one that does not fit, is a format error with the word in it. -/
theorem readInt_grammar (calm : c.source.Calm) (willing : c.sink.Willing)
    (ld : Scanner.Leads c.source.unread blanks word behind) :
    let step := Step.of (.read .int) c
    (∀ z : Int, (∃ n : Int32, n.toInt = z ∧ step.outcome = .ok (some (.int n))) ↔
        (∃ cs, word = Utf8.encode cs ∧ Integer.Spells cs z) ∧ -2 ^ 31 ≤ z ∧ z ≤ 2 ^ 31 - 1) ∧
      ((∀ cs z, word = Utf8.encode cs → Integer.Spells cs z → ¬ (-2 ^ 31 ≤ z ∧ z ≤ 2 ^ 31 - 1)) →
        step.outcome = .error (.error (.format "an integer"
          (String.ofList (Utf8.decodeReplacing word))))) ∧
      step.after.source.unread = behind := by
  intro step
  obtain ⟨outcome, rest⟩ := step_of_leads .int calm willing ld
  have answered : step.outcome = TokenKind.int.answer (some word) := outcome
  rw [answered]
  refine ⟨fun z => ?_, fun unfit => ?_, rest⟩
  · simp only [TokenKind.answer_eq_ok_iff, TokenKind.judge_int_iff, Value.int.injEq,
      exists_eq_left', Integer.read?_eq_some_iff]
    constructor
    · rintro ⟨n, rfl, spells⟩
      exact ⟨spells, n.le_toInt, n.toInt_le⟩
    · rintro ⟨spells, low, high⟩
      -- within these bounds nothing is lost in 32 bits
      have exact : (Int32.ofInt z).toInt = z :=
        Int32.toInt_ofInt_of_le (by simpa using low) (by simpa using Int.lt_add_one_of_le high)
      exact ⟨.ofInt z, exact, exact.symm ▸ spells⟩
  · refine TokenKind.answer_of_ne_ok fun v ok => ?_
    obtain ⟨n, _, cs, text, found⟩ := TokenKind.judge_int_iff.mp ok
    exact unfit cs _ text (Integer.read?_eq_some_iff.mp found) ⟨n.le_toInt, n.toInt_le⟩

/-- The least integer behind zeros that make it longer than any other, cut and interrupted behind
its sign. -/
theorem readInt_grammar_least :
    let again : Fault := ⟨.interrupted, "again"⟩
    let events := [Event.data 0x20 [0x2D], .fault again, .data 0x30 [0x30, 0x32, 0x31, 0x34, 0x37],
      .data 0x34 [0x38, 0x33, 0x36, 0x34, 0x38, 0x0A]]
    let c : Console := ⟨.ofEvents events, {}, {}⟩
    let cs := ['-', '0', '0', '2', '1', '4', '7', '4', '8', '3', '6', '4', '8']
    c.source.Calm ∧ c.sink.Willing ∧ Scanner.Leads c.source.unread [0x20] (Utf8.encode cs) [0x0A] ∧
      ∃ n : Int32, n.toInt = -2147483648 ∧
        (Step.of (.read .int) c).outcome = .ok (some (.int n)) := by
  intro again events c cs
  have calm : c.source.Calm := by
    simp only [c, events, Source.Calm, Source.ofEvents, List.forall_mem_cons]
    exact ⟨.data, .interruption rfl, .data, .data, by simp⟩
  have willing : c.sink.Willing := by simp [Sink.Willing, c]
  have text : Utf8.encode cs =
      [0x2D, 0x30, 0x30, 0x32, 0x31, 0x34, 0x37, 0x34, 0x38, 0x33, 0x36, 0x34, 0x38] := by cbv
  have ld : Scanner.Leads c.source.unread [0x20] (Utf8.encode cs) [0x0A] := by
    rw [text]
    exact ⟨rfl, by simp [Scanner.isBlank], by simp, by simp [Scanner.isBlank],
      by simp [Scanner.isBlank]⟩
  have spells : Integer.Spells cs (-2147483648) := .mk .minus ⟨by simp, by simp [Char.isDigit]⟩
  have read := (readInt_grammar calm willing ld).1 (-2147483648)
  exact ⟨calm, willing, ld, read.mpr ⟨⟨cs, rfl, spells⟩, by decide, by decide⟩⟩

/-- Reading a floating-point number succeeds on just the words of the grammar; any other one is a
format error with the word in it. A decimal is correctly rounded, with the sign that it has, as long
as its exponent is counted in full. -/
theorem readFloat_grammar (calm : c.source.Calm) (willing : c.sink.Willing)
    (ld : Scanner.Leads c.source.unread blanks word behind) :
    let step := Step.of (.read .float) c
    ((∃ x, step.outcome = .ok (some (.float x))) ↔
        ∃ cs, word = Utf8.encode cs ∧ Binary32.Literal cs) ∧
      ((∀ cs, word = Utf8.encode cs → ¬ Binary32.Literal cs) →
        step.outcome = .error (.error (.format "a floating-point number"
          (String.ofList (Utf8.decodeReplacing word))))) ∧
      (∀ (sign : Sign) cs e q, word = Utf8.encode (sign.text ++ cs) → Decimal.Spells cs e q →
        e.natAbs < 65536 → ∃ x, step.outcome = .ok (some (.float x)) ∧
          x.isNegative = sign.isMinus ∧ Binary32.Rounds q x.magnitude) ∧
      step.after.source.unread = behind := by
  intro step
  obtain ⟨outcome, rest⟩ := step_of_leads .float calm willing ld
  have answered : step.outcome = TokenKind.float.answer (some word) := outcome
  rw [answered]
  refine ⟨?_, fun none => ?_, ?_, rest⟩
  · simp only [TokenKind.answer_eq_ok_iff, TokenKind.judge_float_iff, Value.float.injEq,
      exists_eq_left']
    rw [exists_comm]
    simp only [exists_and_left, Binary32.exists_read?_iff]
  · refine TokenKind.answer_of_ne_ok fun v ok => ?_
    obtain ⟨x, _, cs, text, found⟩ := TokenKind.judge_float_iff.mp ok
    exact none cs text (Binary32.exists_read?_iff.mp ⟨x, found⟩)
  · intro sign cs e q text spells small
    obtain ⟨x, found, negative, rounds⟩ := Binary32.read?_spells sign spells small
    refine ⟨x, TokenKind.answer_eq_ok_iff.mpr ?_, negative, rounds⟩
    exact TokenKind.judge_float_iff.mpr ⟨x, rfl, _, text, found⟩

/-- Halfway between two magnitudes, written with a point and an exponent: the even one is read. -/
theorem readFloat_grammar_halfway :
    let events := [Event.data 0x2D [0x31, 0x36, 0x37, 0x37, 0x37, 0x32, 0x31, 0x2E],
      .data 0x37 [0x65], .data 0x2B [0x30, 0x31]]
    let c : Console := ⟨.ofEvents events, { flushes := [.done] }, {}⟩
    let cs := ['1', '6', '7', '7', '7', '2', '1', '.', '7', 'e', '+', '0', '1']
    c.source.Calm ∧ c.sink.Willing ∧
      Scanner.Leads c.source.unread [] (Utf8.encode ('-' :: cs)) [] ∧
      Decimal.Spells cs 1 16777217 ∧
      ∃ x, (Step.of (.read .float) c).outcome = .ok (some (.float x)) ∧ x.isNegative = true ∧
        Binary32.Rounds 16777217 x.magnitude ∧ x.magnitude = 0x4B800000 := by
  intro events c cs
  have calm : c.source.Calm := by
    simp only [c, events, Source.Calm, Source.ofEvents, List.forall_mem_cons]
    exact ⟨.data, .data, .data, by simp⟩
  have willing : c.sink.Willing := fun action mem => List.mem_singleton.mp mem
  have text : Utf8.encode ('-' :: cs) =
      [0x2D, 0x31, 0x36, 0x37, 0x37, 0x37, 0x32, 0x31, 0x2E, 0x37, 0x65, 0x2B, 0x30, 0x31] := by cbv
  have ld : Scanner.Leads c.source.unread [] (Utf8.encode ('-' :: cs)) [] := by
    rw [text]
    exact ⟨rfl, by simp [Scanner.isBlank], by simp, by simp [Scanner.isBlank],
      by simp [Scanner.isBlank]⟩
  have spells : Decimal.Spells cs 1 16777217 := by
    have mantissa : Decimal.Mantissa ['1', '6', '7', '7', '7', '2', '1', '.', '7'] _ 1 :=
      @Decimal.Mantissa.pointed ['1', '6', '7', '7', '7', '2', '1'] ['7']
        ⟨by simp, by simp [Char.isDigit]⟩
    have suffix : Decimal.Suffix ['e', '+', '0', '1'] 1 :=
      .marked .plus (.inl rfl) ⟨by simp, by simp [Char.isDigit]⟩
    have value : numeralValue ['1', '6', '7', '7', '7', '2', '1', '7'] = 16777217 := by decide
    simpa [value] using Decimal.Spells.mk mantissa suffix
  have even : Binary32.Rounds 16777217 0x4B800000 := by
    have rounds := Binary32.ofDecimal_rounds ⟨16777217, 0⟩
    have found : Binary32.ofDecimal ⟨16777217, 0⟩ = 0x4B800000 := by decide +kernel
    simpa [Decimal.toRat, found] using rounds
  obtain ⟨x, outcome, negative, rounds⟩ :=
    (readFloat_grammar calm willing ld).2.2.1 .minus cs 1 16777217 rfl spells (by decide)
  exact ⟨calm, willing, ld, spells, x, outcome, negative, rounds, rounds.unique even⟩

end Teletype.Console
