import Mathlib
import Teletype.Binary32.Writing
import Teletype.Proofs.Binary32.Literal

/-!
# Floating-point literals read back

A layout only moves the point: whichever one is chosen, the text spells the decimal that it lays
out (`layout_spells`). The decimal laid out for a magnitude rounds to it, found or not among the
short ones (`shortest_rounds`), so every number but a NaN reads back from its text (`read?_write`).
-/

namespace Teletype.Binary32

open Decimal (Spells Mantissa Suffix)

/-! ## Layouts -/

/-- The zeros at the end are all that is left out. -/
lemma withoutTrailingZeros_append (digits : List Char) :
    ∃ k, withoutTrailingZeros digits ++ List.replicate k '0' = digits :=
  rdropWhile_append_zeros digits

/-- An exponent is written as it is spelled. -/
lemma exponent_suffix (e : Int) : Suffix ('e' :: exponent e) e := by
  have text : exponent e = (Sign.ofInt e).text ++ Nat.toDigits 10 e.natAbs := by
    unfold exponent Sign.ofInt
    split <;> rfl
  have sx := Suffix.marked (Sign.ofInt e) (.inl (Eq.refl 'e')) (IsNumeral.toDigits e.natAbs)
  rwa [← text, Sign.factor_ofInt] at sx

/-- A decimal is spelled by its parts, whatever way its text and its number are given. -/
lemma spells_of_parts {cs front digits behind : List Char} {places : Nat} {e : Int} {q : ℚ}
    (mt : Mantissa front digits places) (sx : Suffix behind e) (text : cs = front ++ behind)
    (value : q = numeralValue digits * 10 ^ (e - places)) : Spells cs e q := by
  rw [text, value]
  exact .mk mt sx

variable {digits : List Char}

/-- Zeros behind the point, in front of the digits. -/
lemma fraction_spells (num : IsNumeral digits) (k : Nat) :
    Spells (['0', '.'] ++ List.replicate k '0' ++ digits) 0
      (numeralValue digits * 10 ^ (-k - digits.length : Int)) := by
  have num' : IsNumeral (['0'] ++ (List.replicate k '0' ++ digits)) :=
    ⟨by simp, List.forall_mem_append.mpr
      ⟨digits_zeros 1, List.forall_mem_append.mpr ⟨digits_zeros k, num.digits⟩⟩⟩
  have value : numeralValue (['0'] ++ (List.replicate k '0' ++ digits)) = numeralValue digits :=
    (numeralValue_zeros_append 1 _).trans (numeralValue_zeros_append k digits)
  refine spells_of_parts (.pointed num') .absent (by simp) ?_
  rw [value]
  congr 2
  simp only [List.length_append, List.length_replicate]
  omega

/-- Zeros behind the digits, one of them behind the point. -/
lemma whole_spells (num : IsNumeral digits) (k : Nat) :
    Spells (digits ++ List.replicate k '0' ++ ['.', '0']) 0
      (numeralValue digits * 10 ^ (k : Int)) := by
  have zeros : digits ++ List.replicate k '0' ++ ['0'] = digits ++ List.replicate (k + 1) '0' := by
    rw [List.replicate_succ', List.append_assoc]
  have num' : IsNumeral (digits ++ List.replicate k '0' ++ ['0']) := by
    rw [zeros]
    exact ⟨by simp, List.forall_mem_append.mpr ⟨num.digits, digits_zeros (k + 1)⟩⟩
  refine spells_of_parts (.pointed num') .absent (by simp) ?_
  rw [zeros, numeralValue_append_zeros, Nat.cast_mul, Nat.cast_pow, Nat.cast_ofNat,
    ← zpow_natCast, mul_assoc, ← zpow_add₀ (by norm_num)]
  congr 2
  simp only [List.length_singleton]
  omega

/-- The point inside the digits, or behind them. -/
lemma pointed_spells (num : IsNumeral digits) {behind : List Char} {e : Int}
    (sx : Suffix behind e) {n : Nat} (inside : n ≤ digits.length) :
    Spells (digits.take n ++ ['.'] ++ digits.drop n ++ behind) e
      (numeralValue digits * 10 ^ (e + n - digits.length)) := by
  have cut : IsNumeral (digits.take n ++ digits.drop n) := by rwa [List.take_append_drop]
  refine spells_of_parts (.pointed cut) sx (by simp) ?_
  rw [List.take_append_drop]
  congr 2
  rw [List.length_drop]
  omega

/-- The plain layout spells the decimal without an exponent. -/
lemma plain_spells (num : IsNumeral digits) (p : Int) :
    Spells (plain digits p) 0 (numeralValue digits * 10 ^ (p - digits.length)) := by
  unfold plain
  split_ifs with small long
  · have power : p - digits.length = -(-p).toNat - digits.length := by omega
    rw [power]
    exact fraction_spells num _
  · have power : p - digits.length = (p.toNat - digits.length : Nat) := by omega
    rw [power]
    exact whole_spells num _
  · have power : p - digits.length = 0 + p.toNat - digits.length := by omega
    have spells := pointed_spells num .absent (Nat.le_of_not_le long)
    rwa [List.append_nil, ← power] at spells

/-- The layout with an exponent spells the decimal. -/
lemma scientific_spells (num : IsNumeral digits) (p : Int) :
    Spells (scientific digits p) (p - 1) (numeralValue digits * 10 ^ (p - digits.length)) := by
  have sx := exponent_suffix (p - 1)
  have some := List.length_pos_of_ne_nil num.some
  unfold scientific
  split_ifs with single
  · obtain ⟨c, rfl⟩ := List.length_eq_one_iff.mp (show digits.length = 1 by omega)
    exact spells_of_parts (.whole num) sx (by simp) (by simp)
  · have power : p - digits.length = p - 1 + (1 : Nat) - digits.length := by omega
    rw [List.append_assoc _ ['e'], power]
    exact pointed_spells num sx some

/-- The digits of a positive number without the zeros at their end. -/
lemma withoutTrailingZeros_toDigits {c : Nat} (positive : 0 < c) :
    ∃ k, IsNumeral (withoutTrailingZeros (Nat.toDigits 10 c)) ∧
      (Nat.toDigits 10 c).length = (withoutTrailingZeros (Nat.toDigits 10 c)).length + k ∧
      c = numeralValue (withoutTrailingZeros (Nat.toDigits 10 c)) * 10 ^ k := by
  have whole := IsNumeral.toDigits c
  have value : numeralValue (Nat.toDigits 10 c) = c := Nat.ofDigitChars_ten_toDigits
  obtain ⟨k, zeros⟩ := withoutTrailingZeros_append (Nat.toDigits 10 c)
  generalize withoutTrailingZeros (Nat.toDigits 10 c) = digits at *
  rw [← zeros] at whole value ⊢
  rw [numeralValue_append_zeros] at value
  refine ⟨k, ⟨?_, (List.forall_mem_append.mp whole.digits).1⟩, by simp, value.symm⟩
  rintro rfl
  rw [numeralValue, Nat.ofDigitChars_nil, zero_mul] at value
  exact positive.ne value

/-- Whatever its layout, the text spells the decimal. -/
lemma layout_spells {d : Decimal} (positive : 0 < d.coefficient) :
    ∃ e, Spells (layout d) e d.toRat ∧
      e.natAbs ≤ (Nat.toDigits 10 d.coefficient).length + d.exponent.natAbs := by
  obtain ⟨k, num, length, value⟩ := withoutTrailingZeros_toDigits positive
  have some := List.length_pos_of_ne_nil num.some
  have exact : d.toRat = numeralValue (withoutTrailingZeros (Nat.toDigits 10 d.coefficient)) *
      10 ^ ((Nat.toDigits 10 d.coefficient).length + d.exponent -
        (withoutTrailingZeros (Nat.toDigits 10 d.coefficient)).length : Int) := by
    have power : ((Nat.toDigits 10 d.coefficient).length + d.exponent -
        (withoutTrailingZeros (Nat.toDigits 10 d.coefficient)).length : Int) = k + d.exponent := by
      omega
    rw [Decimal.toRat, power, zpow_add₀ (by norm_num), zpow_natCast, ← mul_assoc]
    congr 1
    exact_mod_cast value
  unfold layout
  dsimp only
  rw [exact]
  split_ifs
  · exact ⟨0, plain_spells num _, by simp⟩
  · exact ⟨_, scientific_spells num _, by omega⟩

/-! ## The shortest decimal -/

/-- A neighbour that is taken reads back. -/
lemma neighbour?_rounds {m value zeros : Nat} {d : Decimal}
    (found : neighbour? m value zeros = some d) :
    Rounds d.toRat m ∧ ∃ c ≤ value + 1, d = onGrid zeros c := by
  have below : value / Nat.pow 10 zeros ≤ value := Nat.div_le_self _ _
  have grid : ∀ d', d' = onGrid zeros (value / Nat.pow 10 zeros) ∨
      d' = onGrid zeros (value / Nat.pow 10 zeros + 1) → ofDecimal d' = m → d' = d →
      Rounds d.toRat m ∧ ∃ c ≤ value + 1, d = onGrid zeros c := by
    rintro d' is rfl rfl
    refine ⟨ofDecimal_rounds d', ?_⟩
    rcases is with is | is
    · exact ⟨_, by omega, is⟩
    · exact ⟨_, by omega, is⟩
  unfold neighbour? at found
  rcases ite_eq_iff.mp found with ⟨reads, same⟩ | ⟨-, found⟩
  · exact grid _ (ite_eq_or_eq _ _ _) reads (Option.some.inj same)
  · rcases ite_eq_iff.mp found with ⟨reads, same⟩ | ⟨-, found⟩
    · exact grid _ (ite_eq_or_eq _ _ _).symm reads (Option.some.inj same)
    · cases found

/-- The scaled value is exact. -/
lemma scaled_toRat (m : Nat) : Decimal.toRat ⟨scaled m, -149⟩ = value m := by
  rw [Decimal.toRat, value_eq, scaled, Nat.pow_eq]
  push_cast
  rw [div_eq_mul_inv, mul_assoc]
  congr 1
  norm_num

/-- A finite value takes less than 200 digits. -/
lemma scaled_lt {m : Nat} (finite : m < infinity) : scaled m + 1 < 10 ^ 200 := by
  have lt : units m < units infinity := units_strictMono finite
  have last : units infinity = 2 ^ 23 * 2 ^ 254 := by
    simp only [units, infinity]
    norm_num
  rw [last] at lt
  rw [scaled, Nat.pow_eq]
  calc units m * 5 ^ 149 + 1 ≤ 2 ^ 23 * 2 ^ 254 * 5 ^ 149 + 1 := by gcongr
    _ < 10 ^ 200 := by norm_num

/-- The shortest decimal rounds to the magnitude. It is one of the grid, with a coefficient near the
exact one. -/
lemma shortest_rounds {m : Nat} (finite : m < infinity) :
    Rounds (shortest m).toRat m ∧ ∃ zeros ≤ (Nat.toDigits 10 (scaled m)).length,
      ∃ c ≤ scaled m + 1, shortest m = onGrid zeros c := by
  unfold shortest
  dsimp only
  cases found : (List.range' 1 9).findSome? fun n =>
      neighbour? m (scaled m) ((Nat.toDigits 10 (scaled m)).length - n) with
  | none =>
    rw [Option.getD_none, scaled_toRat]
    exact ⟨rounds_value finite, 0, Nat.zero_le _, scaled m, Nat.le_succ _, rfl⟩
  | some d =>
    obtain ⟨n, _, neighbour⟩ := List.exists_of_findSome?_eq_some found
    obtain ⟨rounds, c, le, grid⟩ := neighbour?_rounds neighbour
    exact ⟨rounds, _, Nat.sub_le _ _, c, le, grid⟩

/-- The magnitude zero stands for zero. -/
lemma value_zero : value 0 = 0 := by
  simp [value, significand]

/-- The text of a finite magnitude spells its shortest decimal, which rounds to it. -/
lemma layout_shortest_spells {m : Nat} (positive : 0 < m) (finite : m < infinity) :
    ∃ e, Spells (layout (shortest m)) e (shortest m).toRat ∧ e.natAbs < 0x10000 ∧
      Rounds (shortest m).toRat m := by
  obtain ⟨rounds, zeros, short, c, le, grid⟩ := shortest_rounds finite
  have digits : (Nat.toDigits 10 (scaled m)).length ≤ 200 := by
    rw [Nat.length_toDigits_le_iff (by decide) (by decide)]
    exact (Nat.lt_succ_self _).trans (scaled_lt finite)
  have digits' : (Nat.toDigits 10 c).length ≤ 200 := by
    rw [Nat.length_toDigits_le_iff (by decide) (by decide)]
    exact lt_of_le_of_lt le (scaled_lt finite)
  rw [grid] at rounds ⊢
  have some : 0 < c := by
    rw [Nat.pos_iff_ne_zero]
    rintro rfl
    have zero : (onGrid zeros 0).toRat = value 0 := by simp [onGrid, Decimal.toRat, value_zero]
    rw [zero] at rounds
    exact positive.ne (rounds.unique (rounds_value (by decide))).symm
  obtain ⟨e, spells, bound⟩ := layout_spells (d := onGrid zeros c) some
  refine ⟨e, spells, ?_, rounds⟩
  simp only [onGrid] at bound
  omega

/-! ## Numbers -/

/-- The number is none of the NaNs. -/
def IsNumber (x : Binary32) : Prop :=
  x.magnitude ≤ infinity

instance (x : Binary32) : Decidable x.IsNumber :=
  inferInstanceAs (Decidable (_ ≤ _))

/-- A word, or a decimal that rounds to the magnitude. -/
inductive Writes : List Char → Nat → Prop where
  | infinity :
    Writes ['i', 'n', 'f'] infinity
  | decimal {cs e q m} :
    Spells cs e q →
    e.natAbs < 0x10000 →
    Rounds q m →
    Writes cs m

/-- What is written for a magnitude reads back as it. -/
lemma writeMagnitude_writes {m : Nat} (number : m ≤ infinity) : Writes (writeMagnitude m) m := by
  unfold writeMagnitude
  split_ifs with top zero
  · rw [top]
    exact .infinity
  · have zeros : IsNumeral (['0'] ++ ['0']) := ⟨by simp, digits_zeros 2⟩
    have spells := Spells.mk (.pointed zeros) .absent
    refine .decimal spells (by decide) ?_
    have value : numeralValue (['0'] ++ ['0']) = 0 := by decide
    rw [value, Nat.cast_zero, zero_mul, zero, ← value_zero]
    exact rounds_value (by decide)
  · obtain ⟨e, spells, small, rounds⟩ :=
      layout_shortest_spells (Nat.pos_of_ne_zero zero) (lt_of_le_of_ne number top)
    exact .decimal spells small rounds

/-- What is written for a magnitude denotes it. -/
lemma Writes.magnitude? {cs m} (wr : Writes cs m) : Binary32.magnitude? cs = some m := by
  cases wr with
  | infinity => rfl
  | decimal spells small rounds => exact magnitude?_of_rounds spells small rounds

/-- A magnitude is written without a sign. -/
lemma Writes.bare {cs m} (wr : Writes cs m) : Sign.Bare cs := by
  cases wr with
  | infinity => intro c mem; cases mem; decide
  | decimal spells => exact spells.bare

/-- What is written of a number is its sign and its magnitude. -/
lemma write_of_isNumber {x : Binary32} (number : x.IsNumber) :
    ∃ sign : Sign, sign.isMinus = x.isNegative ∧
      write x = sign.text ++ writeMagnitude x.magnitude := by
  rw [write, if_neg (Nat.not_lt.mpr number)]
  cases x.isNegative with
  | true => exact ⟨.minus, rfl, rfl⟩
  | false => exact ⟨.absent, rfl, rfl⟩

/-- Every number but a NaN reads back from its text. -/
lemma read?_write {x : Binary32} (number : x.IsNumber) : read? (write x) = some x := by
  have wr := writeMagnitude_writes number
  obtain ⟨sign, negative, text⟩ := write_of_isNumber number
  rw [text, read?_eq, sign.split_text_append wr.bare, wr.magnitude?]
  show some (ofMagnitude sign.isMinus x.magnitude) = some x
  rw [negative, ofMagnitude_magnitude]

/-- All NaNs have one text, which reads back as a NaN. -/
lemma write_of_not_isNumber {x : Binary32} (nan : ¬ x.IsNumber) : write x = ['N', 'a', 'N'] :=
  if_pos (Nat.lt_of_not_le nan)

/-- The word for NaN reads as the quiet NaN. -/
lemma read?_nan : read? ['N', 'a', 'N'] = some (ofMagnitude false quietNaN) := rfl

/-- The quiet NaN is no number. -/
lemma not_isNumber_nan : ¬ (ofMagnitude false quietNaN).IsNumber := by
  decide

/-- The characters that numbers are written with. -/
def characters : List Char :=
  ['.', 'e', 'E', '+', '-', 'i', 'n', 'f', 'N', 'a']

/-- A magnitude is written with digits and the characters listed. -/
lemma Writes.mem {cs m} (wr : Writes cs m) {c : Char} (mem : c ∈ cs) :
    c.isDigit = true ∨ c ∈ characters := by
  cases wr with
  | infinity =>
    right
    simp only [characters, List.mem_cons] at mem ⊢
    tauto
  | decimal spells =>
    refine (spells.mem mem).imp_right fun listed => ?_
    simp only [characters, List.mem_cons] at listed ⊢
    tauto

/-- A number is written with digits and the characters listed. -/
lemma mem_write {x : Binary32} {c : Char} (mem : c ∈ write x) :
    c.isDigit = true ∨ c ∈ characters := by
  by_cases number : x.IsNumber
  case pos =>
    obtain ⟨sign, _, text⟩ := write_of_isNumber number
    rw [text, List.mem_append] at mem
    rcases mem with mem | mem
    · right
      cases sign with
      | absent => cases mem
      | plus | minus => rw [List.mem_singleton.mp mem]; decide
    · exact (writeMagnitude_writes number).mem mem
  case neg =>
    rw [write_of_not_isNumber number] at mem
    right
    simp only [characters, List.mem_cons] at mem ⊢
    tauto

/-- Something is written for every number. -/
lemma write_ne_nil (x : Binary32) : write x ≠ [] := by
  intro none
  by_cases number : x.IsNumber
  case pos =>
    have found := read?_write number
    rw [none, show read? [] = Option.none from rfl] at found
    cases found
  case neg =>
    rw [write_of_not_isNumber number] at none
    cases none

end Teletype.Binary32
