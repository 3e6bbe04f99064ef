import Mathlib
import Teletype.Literal
import Teletype.Proofs.Literal.Numeral

/-!
# Integer literals

Reading a run of digits comes to the sign times the number that the digits stand for, as long as it
fits (`foldlM_push_eq_some_iff`); a number that does not fit is never reached by going on. So what
is read are the texts that spell an integer which fits (`read?_eq_some_iff`), and every integer
reads back from its text (`read?_write`).
-/

namespace Teletype.Integer

open Checked (Fits)

/-- Numbers of one sign that come before a number that fits do fit. -/
lemma fits_of_le {sign : Int} (unit : sign = 1 ∨ sign = -1) {m n : Nat} (le : m ≤ n)
    (fits : Fits (sign * n)) : Fits (sign * m) := by
  unfold Fits at *
  rcases unit with rfl | rfl <;> omega

/-- Digits are pushed one after another as long as the number fits, and only digits are. -/
lemma foldlM_push_eq_some_iff {sign : Int} (unit : sign = 1 ∨ sign = -1) (cs : List Char) {v : Nat}
    (fits : Fits (sign * v)) {z : Int} :
    cs.foldlM (push sign) (sign * v) = some z ↔
      (∀ c ∈ cs, c.isDigit = true) ∧ Fits (sign * Nat.ofDigitChars 10 cs v) ∧
        z = sign * Nat.ofDigitChars 10 cs v := by
  induction cs generalizing v with
  | nil => simp [fits, @eq_comm Int z]
  | cons c cs ih =>
    have next : 10 * (sign * v) + sign * (c.toNat - '0'.toNat : Nat) =
        sign * (10 * v + (c.toNat - '0'.toNat) : Nat) := by
      push_cast
      ring
    rw [List.foldlM_cons, push, next, Nat.ofDigitChars_cons, List.forall_mem_cons]
    by_cases digit : c.isDigit = true
    case neg => simp [digit]
    case pos =>
      simp only [digit, if_true, true_and]
      by_cases more : Fits (sign * (10 * v + (c.toNat - '0'.toNat) : Nat))
      · rw [if_pos more]
        exact ih more
      · rw [if_neg more]
        refine ⟨nofun, fun ⟨_, whole, _⟩ => ?_⟩
        exact absurd (fits_of_le unit (le_ofDigitChars cs _) whole) more

/-- Digits whose number fits are read as it. -/
lemma readDigits?_of_fits {sign : Int} (unit : sign = 1 ∨ sign = -1) {cs : List Char}
    (some : cs ≠ []) (digits : ∀ c ∈ cs, c.isDigit = true)
    (fits : Fits (sign * Nat.ofDigitChars 10 cs 0)) :
    readDigits? sign cs = .some (Int32.ofInt (sign * Nat.ofDigitChars 10 cs 0)) := by
  have zero : Fits (sign * (0 : Nat)) := by simp [Fits]
  have found := (foldlM_push_eq_some_iff unit cs zero).mpr ⟨digits, fits, rfl⟩
  rw [Nat.cast_zero, mul_zero] at found
  cases cs with
  | nil => exact absurd rfl some
  | cons c cs => exact congrArg (Option.map Int32.ofInt) found

/-- An integer of 32 bits fits into them. -/
lemma fits_toInt (n : Int32) : Fits n.toInt :=
  ⟨n.le_toInt, n.toInt_lt⟩

/-! ## Grammar -/

/-- The text spells the integer: a sign, if any, and digits. -/
inductive Spells : List Char → Int → Prop where
  | mk {digits} (sign : Sign) :
    IsNumeral digits →
    Spells (sign.text ++ digits) (sign.factor * numeralValue digits)

/-- An integer is read from a run of digits just when it is the number of them. -/
lemma readDigits?_eq_some_iff {sign : Int} (unit : sign = 1 ∨ sign = -1) {cs : List Char}
    {n : Int32} :
    readDigits? sign cs = some n ↔ IsNumeral cs ∧ n.toInt = sign * numeralValue cs := by
  constructor
  · intro found
    have zero : Fits (sign * (0 : Nat)) := by simp [Fits]
    have start : sign * (0 : Nat) = 0 := by simp
    cases cs with
    | nil => cases found
    | cons c cs =>
      obtain ⟨z, pushed, rfl⟩ := Option.map_eq_some_iff.mp found
      rw [← start] at pushed
      obtain ⟨digits, fits, rfl⟩ := (foldlM_push_eq_some_iff unit (c :: cs) zero).mp pushed
      exact ⟨⟨List.cons_ne_nil c cs, digits⟩, Int32.toInt_ofInt_of_le fits.1 fits.2⟩
  · rintro ⟨num, exact⟩
    have found := readDigits?_of_fits unit num.some num.digits (exact ▸ fits_toInt n)
    rwa [← numeralValue, ← exact, Int32.ofInt_toInt] at found

/-- An integer is read behind its sign. -/
lemma read?_eq (cs : List Char) :
    read? cs = readDigits? (Sign.split cs).1.factor (Sign.split cs).2 := by
  unfold read?
  split
  next => rfl
  next => rfl
  next minus plus =>
    rw [Sign.split_of_ne minus plus]
    rfl

/-- An integer is read from just the texts that spell it. -/
lemma read?_eq_some_iff {cs : List Char} {n : Int32} : read? cs = some n ↔ Spells cs n.toInt := by
  rw [read?_eq]
  constructor
  · intro found
    obtain ⟨num, exact⟩ := (readDigits?_eq_some_iff (Sign.factor_unit _)).mp found
    rw [exact, ← Sign.text_append_split cs]
    simpa only [Sign.text_append_split] using Spells.mk (Sign.split cs).1 num
  · intro spells
    generalize exact : n.toInt = z at spells
    cases spells with
    | mk sign num =>
      rw [sign.split_text_append num.bare]
      exact (readDigits?_eq_some_iff sign.factor_unit).mpr ⟨num, exact⟩

/-! ## Written and read back -/

/-- Something is written for every integer. -/
lemma write_ne_nil (n : Int32) : write n ≠ [] := by
  unfold write
  split
  next => exact List.cons_ne_nil _ _
  next => exact Nat.toDigits_ne_nil

/-- An integer is written with digits and a minus sign only. -/
lemma mem_write {n : Int32} {c : Char} (mem : c ∈ write n) : c = '-' ∨ c.isDigit = true := by
  have digit : c ∈ Nat.toDigits 10 n.toInt.natAbs → c.isDigit = true :=
    Nat.isDigit_of_mem_toDigits (by decide) (by decide)
  unfold write at mem
  split at mem
  next => exact (List.mem_cons.mp mem).imp_right digit
  next => exact .inr (digit mem)

/-- What is written spells the integer. -/
lemma write_spells (n : Int32) : Spells (write n) n.toInt := by
  have text : write n = (Sign.ofInt n.toInt).text ++ Nat.toDigits 10 n.toInt.natAbs := by
    unfold write Sign.ofInt
    split <;> rfl
  have spells := Spells.mk (Sign.ofInt n.toInt) (IsNumeral.toDigits n.toInt.natAbs)
  rwa [← text, Sign.factor_ofInt] at spells

/-- What is written reads back. -/
theorem read?_write (n : Int32) : read? (write n) = some n :=
  read?_eq_some_iff.mpr (write_spells n)

end Teletype.Integer
