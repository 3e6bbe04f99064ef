import Mathlib
import Teletype.Proofs.Binary32.Shortest
import Teletype.Proofs.Console.Canonical

/-!
# Shortest texts

A floating-point number has many texts that it is read from. The one that is written of it is as
short as any of them, counted in significant digits: zeros, the point and the exponent are for free.
Of the texts that are as short none is closer to the number's exact value (`float_shortest`).
-/

namespace Teletype

namespace Binary32

open Decimal (Spells)

/-- The number that a finite one stands for. -/
def toRat (x : Binary32) : ℚ :=
  (if x.isNegative then -1 else 1) * value x.magnitude

/-- The text is a decimal, perhaps with a sign, that stands for the number. -/
inductive Denotes : List Char → ℚ → Prop where
  | mk {cs e q} (sign : Sign) :
    Spells cs e q →
    Denotes (sign.text ++ cs) (sign.factor * q)

variable {x : Binary32} {sign : Sign} {text : List Char}

/-- Between numbers of one sign the distance is that of their magnitudes. -/
lemma abs_sub_toRat (same : x.isNegative = sign.isMinus) (q : ℚ) :
    |sign.factor * q - x.toRat| = |value x.magnitude - q| := by
  have factor : (sign.factor : ℚ) = if x.isNegative then -1 else 1 := by
    rw [same]
    cases sign <;> simp [Sign.factor, Sign.isMinus]
  have unit : |(sign.factor : ℚ)| = 1 := by
    rcases sign.factor_unit with unit | unit <;> simp [unit]
  rw [toRat, ← factor, ← mul_sub, abs_mul, unit, one_mul, abs_sub_comm]

/-- What is written of a number is its shortest decimal behind its sign. -/
lemma exists_write (nonzero : x.magnitude ≠ 0) (finite : x.magnitude < infinity) :
    ∃ (sign : Sign) (cs : List Char) (e : Int), write x = sign.text ++ cs ∧
      x.isNegative = sign.isMinus ∧ Spells cs e (shortest x.magnitude).toRat := by
  obtain ⟨sign, negative, text⟩ := write_of_isNumber finite.le
  obtain ⟨e, sp, -⟩ := layout_shortest_spells (Nat.pos_of_ne_zero nonzero) finite
  have decimal : writeMagnitude x.magnitude = layout (shortest x.magnitude) := by
    rw [writeMagnitude, if_neg finite.ne, if_neg nonzero]
  exact ⟨sign, _, e, decimal ▸ text, negative.symm, sp⟩

/-- No text that the number is read from has fewer significant digits than the text that is written
of it, and none with as many is closer to its value. -/
lemma write_least (nonzero : x.magnitude ≠ 0) (finite : x.magnitude < infinity) :
    ∃ q, Denotes (write x) q ∧ ∀ text q', Denotes text q' → read? text = some x →
      significantDigits (write x) ≤ significantDigits text ∧
        (significantDigits text = significantDigits (write x) →
          |q - x.toRat| ≤ |q' - x.toRat|) := by
  have positive := Nat.pos_of_ne_zero nonzero
  obtain ⟨sign, cs, e, written, same, sp⟩ := exists_write nonzero finite
  obtain ⟨own, n, has, least⟩ := shortest_least positive finite
  have count : significantDigits (sign.text ++ cs) = n :=
    le_antisymm ((sp.hasDigits_iff sign).mp has)
      (least _ _ own ((sp.hasDigits_iff sign).mpr le_rfl)).1
  rw [written, count]
  refine ⟨_, .mk sign sp, fun text q' de found => ?_⟩
  cases de with
  | mk sign' sp' =>
    obtain ⟨same', j, gr⟩ := read?_shift sign' sp' found
    have has' := ((sp'.hasDigits_iff sign').mpr le_rfl).shift j
    obtain ⟨shorter, closer⟩ := least _ _ gr has'
    refine ⟨shorter, fun as_many => ?_⟩
    rw [abs_sub_toRat same, abs_sub_toRat same']
    exact (closer as_many).trans (gr.abs_sub_le_of_shift positive finite)

end Binary32

namespace Console

open Binary32 (Denotes)

/-- Text is judged to be a floating-point number just when it denotes one. -/
lemma TokenKind.judge_float_encode {x : Binary32} {text : List Char} :
    TokenKind.float.judge (Utf8.encode text) = .ok (.float x) ↔ Binary32.read? text = some x := by
  rw [judge_float_iff]
  constructor
  · rintro ⟨y, same, cs, word, found⟩
    obtain rfl := Utf8.encode_injective word
    rw [found, Value.float.inj same]
  · intro found
    exact ⟨x, rfl, text, rfl, found⟩

variable {c : Console} {blanks behind : List UInt8} {text : List Char}

/-- A read in front of a text gives a floating-point number just when the text denotes it. -/
lemma readFloat_eq_iff {x : Binary32} (calm : c.source.Calm) (willing : c.sink.Willing)
    (ld : Scanner.Leads c.source.unread blanks (Utf8.encode text) behind) :
    (Step.of (.read .float) c).outcome = .ok (some (.float x)) ↔ Binary32.read? text = some x := by
  have answered : (Step.of (.read .float) c).outcome =
      TokenKind.float.answer (some (Utf8.encode text)) := (step_of_leads .float calm willing ld).1
  rw [answered, TokenKind.answer_eq_ok_iff, TokenKind.judge_float_encode]

/-- A finite number other than zero is written as a decimal, from which it is read back. No decimal
that the number is read from, whatever its exponent is, has fewer significant digits, and none with
as many is closer to the exact value of the number. -/
theorem float_shortest {x : Binary32} (nonzero : x.magnitude ≠ 0)
    (finite : x.magnitude < Binary32.infinity) :
    ∃ written q, (Value.float x).render = Utf8.encode written ∧ Denotes written q ∧
      ∀ {c : Console} {blanks text behind}, c.source.Calm → c.sink.Willing →
        Scanner.Leads c.source.unread blanks (Utf8.encode text) behind →
        let outcome := (Step.of (.read .float) c).outcome
        (text = written → outcome = .ok (some (.float x))) ∧
          ∀ q', Denotes text q' → outcome = .ok (some (.float x)) →
            significantDigits written ≤ significantDigits text ∧
              (significantDigits text = significantDigits written →
                |q - x.toRat| ≤ |q' - x.toRat|) := by
  obtain ⟨q, de, least⟩ := Binary32.write_least nonzero finite
  refine ⟨Binary32.write x, q, rfl, de, fun {c blanks text behind} calm willing ld => ?_⟩
  have reads := readFloat_eq_iff (x := x) calm willing ld
  refine ⟨?_, fun q' de' found => least text q' de' (reads.mp found)⟩
  rintro rfl
  exact reads.mpr (Binary32.read?_write finite.le)

/-- The number nearest to zero below it, written with one digit, and another text of one digit that
it is read from, with zeros around the point, cut and interrupted within its exponent. -/
theorem float_shortest_subnormal :
    let x : Binary32 := ⟨0x80000001⟩
    let again : Fault := ⟨.interrupted, "again"⟩
    let events := [Event.data 0x20 [0x2D, 0x30, 0x2E], .data 0x30 [0x30, 0x32, 0x65, 0x2D],
      .fault again, .data 0x34 [0x32, 0x0A]]
    let c : Console := ⟨.ofEvents events, {}, {}⟩
    let text := ['-', '0', '.', '0', '0', '2', 'e', '-', '4', '2']
    let written := ['-', '1', 'e', '-', '4', '5']
    c.source.Calm ∧ c.sink.Willing ∧
      Scanner.Leads c.source.unread [0x20] (Utf8.encode text) [0x0A] ∧
      (Step.of (.read .float) c).outcome = .ok (some (.float x)) ∧
      (Value.float x).render = Utf8.encode written ∧
      significantDigits written ≤ significantDigits text ∧
      ∃ q, Denotes written q ∧ |q - x.toRat| ≤ |-2 * 10 ^ (-45 : Int) - x.toRat| := by
  intro x again events c text written
  have calm : c.source.Calm := by
    simp only [c, events, Source.Calm, Source.ofEvents, List.forall_mem_cons]
    exact ⟨.data, .data, .interruption rfl, .data, by simp⟩
  have willing : c.sink.Willing := by simp [Sink.Willing, c]
  have bytes : Utf8.encode text =
      [0x2D, 0x30, 0x2E, 0x30, 0x30, 0x32, 0x65, 0x2D, 0x34, 0x32] := by cbv
  have ld : Scanner.Leads c.source.unread [0x20] (Utf8.encode text) [0x0A] := by
    rw [bytes]
    exact ⟨rfl, by simp [Scanner.isBlank], by simp, by simp [Scanner.isBlank],
      by simp [Scanner.isBlank]⟩
  have read : Binary32.read? text = some x := by decide +kernel
  have de : Denotes text (-2 * 10 ^ (-45 : Int)) := by
    have mantissa : Decimal.Mantissa ['0', '.', '0', '0', '2'] _ 3 :=
      @Decimal.Mantissa.pointed ['0'] ['0', '0', '2'] ⟨by simp, by simp [Char.isDigit]⟩
    have suffix : Decimal.Suffix ['e', '-', '4', '2'] (-42) :=
      .marked .minus (.inl rfl) ⟨by simp, by simp [Char.isDigit]⟩
    have value : numeralValue ['0', '0', '0', '2'] = 2 := by decide
    simpa [text, Sign.text, value, Sign.factor, Sign.isMinus] using
      Denotes.mk .minus (.mk mantissa suffix)
  have outcome := (readFloat_eq_iff calm willing ld).mpr read
  have own : (Value.float x).render = Utf8.encode written := by decide +kernel
  obtain ⟨written', q, render, de', least⟩ := float_shortest (x := x) (by decide) (by decide)
  obtain rfl := Utf8.encode_injective (own.symm.trans render)
  obtain ⟨shorter, closer⟩ := (least calm willing ld).2 _ de outcome
  exact ⟨calm, willing, ld, outcome, own, shorter, q, de', closer (by decide)⟩

end Console

end Teletype
