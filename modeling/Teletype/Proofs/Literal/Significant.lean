import Mathlib
import Teletype.Proofs.Literal.Decimal

/-!
# Significant digits

How many digits of a text are significant: all but the zeros at either end of its digits, without
the exponent. This is no matter of spelling. `HasDigits n q` says of the number alone that `n`
digits are enough for it, at some exponent, and a text that spells the number has no more than that
(`Spells.hasDigits_iff`).
-/

namespace Teletype

/-! ## Numerals without zeros at the ends -/

/-- The digits without the zeros in front and behind. -/
def stripZeros (digits : List Char) : List Char :=
  (digits.dropWhile (· == '0')).rdropWhile (· == '0')

/-- Digits that neither start nor end with a zero. -/
structure IsTrimmed (digits : List Char) : Prop where
  all : ∀ c ∈ digits, c.isDigit = true
  first : ∀ c ∈ digits.head?, c ≠ '0'
  last : ∀ c ∈ digits.getLast?, c ≠ '0'

/-- Stripped digits neither start nor end with a zero. -/
lemma stripZeros_trimmed {digits : List Char} (all : ∀ c ∈ digits, c.isDigit = true) :
    IsTrimmed (stripZeros digits) := by
  have front := List.rdropWhile_prefix (· == '0') (digits.dropWhile (· == '0'))
  refine ⟨fun c mem => ?_, fun c mem => ?_, fun c mem => ?_⟩
  · exact all c ((List.dropWhile_suffix _).subset (front.subset mem))
  · obtain ⟨behind, split⟩ := front
    have first := List.head?_dropWhile_not (· == '0') digits
    rw [← split, List.head?_append, ← stripZeros, mem, Option.some_or] at first
    simpa using first
  · obtain ⟨some, rfl⟩ := List.mem_getLast?_eq_getLast mem
    intro zero
    exact List.rdropWhile_last_not (· == '0') _ some (beq_iff_eq.mpr zero)

/-- Stripping zeros divides the number by a power of ten. -/
lemma numeralValue_stripZeros (digits : List Char) :
    ∃ k, numeralValue digits = numeralValue (stripZeros digits) * 10 ^ k := by
  obtain ⟨j, front⟩ := zeros_append_dropWhile digits
  obtain ⟨k, behind⟩ := rdropWhile_append_zeros (digits.dropWhile (· == '0'))
  refine ⟨k, ?_⟩
  rw [← front, ← behind, numeralValue_zeros_append, numeralValue_append_zeros, behind, front]
  rfl

/-- A digit is less than ten. -/
lemma digit_lt {c : Char} (digit : c.isDigit = true) : c.toNat - '0'.toNat < 10 := by
  have bounds := Char.isDigit_iff_toNat.mp digit
  have ends : '0'.toNat = 48 ∧ '9'.toNat = 57 := ⟨rfl, rfl⟩
  omega

/-- Only the digit zero is zero. -/
lemma digit_pos {c : Char} (digit : c.isDigit = true) (some : c ≠ '0') :
    0 < c.toNat - '0'.toNat := by
  have bounds := Char.isDigit_iff_toNat.mp digit
  have zero : '0'.toNat = 48 := rfl
  have apart : c.toNat ≠ '0'.toNat := fun same => some (Char.toNat_inj.mp same)
  omega

/-- The first digit weighs most. -/
lemma numeralValue_cons (c : Char) (cs : List Char) :
    numeralValue (c :: cs) = 10 ^ cs.length * (c.toNat - '0'.toNat) + numeralValue cs := by
  rw [numeralValue, Nat.ofDigitChars_cons, Nat.ofDigitChars_eq_ofDigitChars_zero, mul_zero,
    zero_add]

/-- So many digits make a number below that power of ten. -/
lemma numeralValue_lt {cs : List Char} (digits : ∀ c ∈ cs, c.isDigit = true) :
    numeralValue cs < 10 ^ cs.length := by
  induction cs with
  | nil => exact Nat.one_pos
  | cons c cs ih =>
    obtain ⟨digit, digits⟩ := List.forall_mem_cons.mp digits
    rw [numeralValue_cons, List.length_cons, pow_succ]
    calc 10 ^ cs.length * (c.toNat - '0'.toNat) + numeralValue cs
        < 10 ^ cs.length * (c.toNat - '0'.toNat) + 10 ^ cs.length := by gcongr; exact ih digits
      _ = 10 ^ cs.length * (c.toNat - '0'.toNat + 1) := rfl
      _ ≤ 10 ^ cs.length * 10 := by gcongr; exact digit_lt digit

variable {digits : List Char}

/-- Without a zero in front the digits make a number as large as the first place. -/
lemma IsTrimmed.le_numeralValue (tr : IsTrimmed digits) (some : digits ≠ []) :
    10 ^ (digits.length - 1) ≤ numeralValue digits := by
  obtain ⟨c, cs, rfl⟩ := List.exists_cons_of_ne_nil some
  have pos := digit_pos (tr.all c List.mem_cons_self) (tr.first c rfl)
  rw [numeralValue_cons, List.length_cons, Nat.add_sub_cancel]
  exact Nat.le_add_right_of_le (Nat.le_mul_of_pos_right _ pos)

/-- Without a zero behind, ten does not divide the number. -/
lemma IsTrimmed.not_dvd (tr : IsTrimmed digits) (some : digits ≠ []) :
    ¬ 10 ∣ numeralValue digits := by
  obtain ⟨cs, c, rfl⟩ := (List.eq_nil_or_concat' digits).resolve_left some
  have digit := tr.all c (by simp)
  have pos := digit_pos digit (tr.last c (by simp))
  have lt := digit_lt digit
  rw [numeralValue, Nat.ofDigitChars_append, Nat.ofDigitChars_cons, Nat.ofDigitChars_nil]
  omega

/-! ## Enough digits -/

/-- The number is a decimal with no more than so many digits. -/
def HasDigits (n : Nat) (q : ℚ) : Prop :=
  ∃ (c : Nat) (e : Int), c < 10 ^ n ∧ q = c * 10 ^ e

/-- Powers of ten can be divided by. -/
lemma ten : (10 : ℚ) ≠ 0 := by
  norm_num

/-- A power of ten as a factor does not change the digits. -/
lemma HasDigits.shift {n : Nat} {q : ℚ} (has : HasDigits n q) (j : Int) :
    HasDigits n (q * 10 ^ j) := by
  obtain ⟨c, e, lt, rfl⟩ := has
  refine ⟨c, e + j, lt, ?_⟩
  rw [zpow_add₀ ten, mul_assoc]

/-- A positive number has at least one digit. -/
lemma HasDigits.pos_of_pos {n : Nat} {q : ℚ} (has : HasDigits n q) (positive : 0 < q) : 0 < n := by
  obtain ⟨c, e, lt, rfl⟩ := has
  rw [Nat.pos_iff_ne_zero]
  rintro rfl
  obtain rfl : c = 0 := by omega
  rw [Nat.cast_zero, zero_mul] at positive
  exact positive.false

/-- The least number with one more digit is a one with zeros behind it. -/
lemma hasDigits_of_le {n c : Nat} (le : c ≤ 10 ^ (n + 1)) (e : Int) :
    HasDigits (n + 1) (c * 10 ^ e) := by
  rcases le.lt_or_eq with lt | rfl
  · exact ⟨c, e, lt, rfl⟩
  · refine ⟨1, (n + 1 : Nat) + e, Nat.one_lt_pow n.succ_ne_zero (by decide), ?_⟩
    rw [zpow_add₀ ten, zpow_natCast, Nat.cast_one, one_mul, Nat.cast_pow]
    rfl

/-- Of two spellings of a decimal the one with the lower exponent has the other's digits in
front. -/
lemma coefficient_of_le {a b : Nat} {x y : Int} (le : x ≤ y)
    (same : (a * 10 ^ x : ℚ) = b * 10 ^ y) : a = b * 10 ^ (y - x).toNat := by
  obtain ⟨k, rfl⟩ := Int.le.dest le
  have value : (a : ℚ) = b * 10 ^ k := by
    apply mul_right_cancel₀ (zpow_ne_zero x ten)
    rw [same, zpow_add₀ ten, zpow_natCast]
    ring
  rw [add_sub_cancel_left, Int.toNat_natCast]
  exact_mod_cast value

/-- Without zeros at the ends no digit can be spared. -/
lemma IsTrimmed.hasDigits_iff (tr : IsTrimmed digits) (z : Int) {n : Nat} :
    HasDigits n (numeralValue digits * 10 ^ z) ↔ digits.length ≤ n := by
  constructor
  · rintro ⟨c, e, lt, same⟩
    by_cases none : digits = []
    · simp [none]
    rcases le_or_gt e z with le | gt
    · have value := coefficient_of_le le same.symm
      have grows : numeralValue digits ≤ c := value ▸ Nat.le_mul_of_pos_right _ (by positivity)
      have low := (tr.le_numeralValue none).trans grows
      have power := (Nat.pow_lt_pow_iff_right (by decide)).mp (low.trans_lt lt)
      omega
    · -- the last of the digits would be a zero
      have value := coefficient_of_le gt.le same
      have zero : 10 ∣ 10 ^ (e - z).toNat := dvd_pow_self 10 (by omega)
      exact absurd (value ▸ Dvd.dvd.mul_left zero c) (tr.not_dvd none)
  · intro le
    exact ⟨_, z, (numeralValue_lt tr.all).trans_le (Nat.pow_le_pow_right (by decide) le), rfl⟩

/-! ## The digits of a text -/

/-- The number of significant digits in the text of a decimal. -/
def significantDigits (cs : List Char) : Nat :=
  let mantissa := cs.takeWhile fun c => c != 'e' && c != 'E'
  (stripZeros (mantissa.filter Char.isDigit)).length

namespace Decimal

variable {front behind cs : List Char} {places : Nat} {e : Int} {q : ℚ}

/-- The digits of a mantissa are all the digits in it. -/
lemma Mantissa.filter_isDigit (mt : Mantissa front digits places) :
    front.filter Char.isDigit = digits := by
  cases mt with
  | whole num => exact List.filter_eq_self.mpr num.digits
  | @pointed whole part num =>
    have point : Char.isDigit '.' = false := rfl
    rw [List.filter_append, List.filter_cons_of_neg (by simp [point]), ← List.filter_append]
    exact List.filter_eq_self.mpr num.digits

/-- The mantissa, with its sign, is what stands before the exponent. -/
lemma takeWhile_mantissa (sign : Sign) (mt : Mantissa front digits places) (sx : Suffix behind e) :
    (sign.text ++ (front ++ behind)).takeWhile (fun c => c != 'e' && c != 'E') =
      sign.text ++ front := by
  rw [← List.append_assoc]
  refine (takeWhile_append_stop (fun c mem => ?_) (fun c mem => ?_)).1
  · rcases List.mem_append.mp mem with mem | mem
    · cases sign <;> simp_all [Sign.text]
    · rcases mt.mem mem with digit | rfl
      · have letters : Char.isDigit 'e' = false ∧ Char.isDigit 'E' = false := ⟨rfl, rfl⟩
        have apart : c ≠ 'e' ∧ c ≠ 'E' := by
          constructor <;> rintro rfl <;> simp [letters] at digit
        simp [apart]
      · rfl
  · cases sx with
    | absent => cases mem
    | marked _ is =>
      cases mem
      rcases is with rfl | rfl <;> rfl

/-- The digits of a text that are significant are those of the number that it spells. -/
lemma Spells.hasDigits_iff (sign : Sign) (sp : Spells cs e q) {n : Nat} :
    HasDigits n q ↔ significantDigits (sign.text ++ cs) ≤ n := by
  cases sp with
  | @mk front digits places behind _ mt sx =>
    have signless : sign.text.filter Char.isDigit = [] := by cases sign <;> rfl
    have trimmed := stripZeros_trimmed mt.numeral.digits
    obtain ⟨k, value⟩ := numeralValue_stripZeros digits
    have power : (numeralValue digits * 10 ^ (e - places) : ℚ) =
        numeralValue (stripZeros digits) * 10 ^ (k + (e - places)) := by
      rw [value, Nat.cast_mul, Nat.cast_pow, zpow_add₀ ten, zpow_natCast, mul_assoc]
      rfl
    rw [power, trimmed.hasDigits_iff, significantDigits, takeWhile_mantissa sign mt sx,
      List.filter_append, signless, List.nil_append, mt.filter_isDigit]

example : significantDigits ['-', '0', '.', '0', '2', '0', '5', '0', 'e', '7'] = 3 := by decide

end Decimal

end Teletype
