import Mathlib

/-!
# Signs and numerals

What the texts of numbers are made of: a sign, which may be missing, and a run of digits. A sign is
told by the first character alone (`Sign.split_text_append`). Zeros in front of the digits do not
change their number, and zeros behind them multiply it.
-/

namespace Teletype

/-- A run of digits, at least one. -/
structure IsNumeral (cs : List Char) : Prop where
  some : cs ≠ []
  digits : ∀ c ∈ cs, c.isDigit = true

/-- The number that a run of digits stands for. -/
abbrev numeralValue (cs : List Char) : Nat :=
  Nat.ofDigitChars 10 cs 0

/-- Digits behind a value do not make it smaller. -/
lemma le_ofDigitChars (cs : List Char) (v : Nat) : v ≤ Nat.ofDigitChars 10 cs v := by
  rw [Nat.ofDigitChars_eq_ofDigitChars_zero]
  have grows : v ≤ 10 ^ cs.length * v := Nat.le_mul_of_pos_left v (Nat.pow_pos (by decide))
  exact Nat.le_add_right_of_le grows

/-- What may stand before a number. -/
inductive Sign
  | absent
  | plus
  | minus
  deriving DecidableEq, Repr

namespace Sign

/-- The text of a sign. -/
def text : Sign → List Char
  | absent => []
  | plus => ['+']
  | minus => ['-']

/-- The sign is a minus sign. -/
def isMinus : Sign → Bool
  | minus => true
  | absent | plus => false

/-- What a sign multiplies the number behind it by. -/
def factor (s : Sign) : Int :=
  if s.isMinus then -1 else 1

/-- A sign changes no absolute value. -/
lemma factor_unit (s : Sign) : s.factor = 1 ∨ s.factor = -1 := by
  cases s <;> decide

/-- The sign that an integer is written with. -/
def ofInt (z : Int) : Sign :=
  if z < 0 then minus else absent

/-- An integer is its sign times the number of its digits. -/
lemma factor_ofInt (z : Int) :
    (ofInt z).factor * numeralValue (Nat.toDigits 10 z.natAbs) = z := by
  have value : numeralValue (Nat.toDigits 10 z.natAbs) = z.natAbs := Nat.ofDigitChars_ten_toDigits
  rw [value, ofInt]
  split
  next negative =>
    show (-1 : Int) * z.natAbs = z
    omega
  next positive =>
    show (1 : Int) * z.natAbs = z
    omega

/-- A sign in front, and the text behind it. -/
def split : List Char → Sign × List Char
  | '-' :: cs => (minus, cs)
  | '+' :: cs => (plus, cs)
  | cs => (absent, cs)

/-- The sign in front and the text behind it make up the text. -/
lemma text_append_split (cs : List Char) : (split cs).1.text ++ (split cs).2 = cs := by
  unfold split
  split <;> rfl

/-- A text with neither sign in front is left whole. -/
lemma split_of_ne {cs : List Char} (minus : ∀ ds, cs = '-' :: ds → False)
    (plus : ∀ ds, cs = '+' :: ds → False) : split cs = (absent, cs) := by
  unfold split
  split
  next => exact absurd rfl (minus _)
  next => exact absurd rfl (plus _)
  next => rfl

/-- The text does not start with a sign. -/
def Bare (cs : List Char) : Prop :=
  ∀ c ∈ cs.head?, c ≠ '-' ∧ c ≠ '+'

/-- A sign in front of a bare text is split off. -/
lemma split_text_append (s : Sign) {cs : List Char} (bare : Bare cs) :
    split (s.text ++ cs) = (s, cs) := by
  cases s with
  | plus | minus => rfl
  | absent =>
    refine split_of_ne ?_ ?_ <;> rintro ds rfl
    · exact (bare '-' rfl).1 rfl
    · exact (bare '+' rfl).2 rfl

end Sign

namespace IsNumeral

variable {cs : List Char}

/-- No run of digits starts with a sign. -/
lemma bare (num : IsNumeral cs) : Sign.Bare cs := by
  intro c mem
  have digit := num.digits c (List.mem_of_mem_head? mem)
  constructor <;> rintro rfl <;> exact absurd digit (by decide)

/-- The digits of a natural number are a run of digits. -/
lemma toDigits (n : Nat) : IsNumeral (Nat.toDigits 10 n) where
  some := Nat.toDigits_ne_nil
  digits _ mem := Nat.isDigit_of_mem_toDigits (by decide) (by decide) mem

end IsNumeral

/-! ## Zeros around a numeral -/

/-- Zeros are digits. -/
lemma digits_zeros (k : Nat) : ∀ c ∈ List.replicate k '0', c.isDigit = true := by
  intro c mem
  rw [List.eq_of_mem_replicate mem]
  rfl

/-- Zeros in front do not change the number. -/
lemma numeralValue_zeros_append (k : Nat) (digits : List Char) :
    numeralValue (List.replicate k '0' ++ digits) = numeralValue digits := by
  rw [numeralValue, Nat.ofDigitChars_append, Nat.ofDigitChars_replicate_zero, mul_zero]

/-- Each zero behind multiplies the number by ten. -/
lemma numeralValue_append_zeros (digits : List Char) (k : Nat) :
    numeralValue (digits ++ List.replicate k '0') = numeralValue digits * 10 ^ k := by
  rw [numeralValue, Nat.ofDigitChars_append, Nat.ofDigitChars_replicate_zero, mul_comm]

/-- The zeros in front are a run of zeros. -/
lemma takeWhile_zeros (digits : List Char) : ∃ k,
    digits.takeWhile (· == '0') = List.replicate k '0' := by
  refine ⟨_, List.eq_replicate_iff.mpr ⟨rfl, fun c mem => ?_⟩⟩
  simpa using List.mem_takeWhile_imp mem

/-- Digits are a run of zeros and what is left without the zeros in front. -/
lemma zeros_append_dropWhile (digits : List Char) :
    ∃ k, List.replicate k '0' ++ digits.dropWhile (· == '0') = digits := by
  obtain ⟨k, zeros⟩ := takeWhile_zeros digits
  exact ⟨k, by rw [← zeros, List.takeWhile_append_dropWhile]⟩

/-- Digits are what is left without the zeros behind, and a run of zeros. -/
lemma rdropWhile_append_zeros (digits : List Char) :
    ∃ k, digits.rdropWhile (· == '0') ++ List.replicate k '0' = digits := by
  obtain ⟨k, split⟩ := zeros_append_dropWhile digits.reverse
  refine ⟨k, ?_⟩
  rw [List.rdropWhile, ← List.reverse_inj, List.reverse_append, List.reverse_reverse,
    List.reverse_replicate, split]

end Teletype
