import Mathlib
import Teletype.Decimal
import Teletype.Proofs.Literal.Numeral
import Teletype.Proofs.Runs

/-!
# Decimal literals

The grammar of unsigned decimals: `Spells` takes a text apart into digits with at most one point and
perhaps an exponent, and says which rational number it spells. Decimals are read from just the texts
of the grammar (`exists_read?_iff`), and with the number spelled unless the exponent is so large
that its digits are no longer counted (`Spells.read`).
-/

namespace Teletype.Decimal

/-- The rational number that a decimal stands for. -/
def toRat (d : Decimal) : ℚ :=
  d.coefficient * 10 ^ d.exponent

/-- A decimal is the ratio of its numerator and its denominator. -/
lemma numerator_div_denominator (d : Decimal) : (d.numerator : ℚ) / d.denominator = d.toRat := by
  obtain ⟨c, e⟩ := d
  have ten : (10 : ℚ) ≠ 0 := by norm_num
  simp only [numerator, denominator, toRat, Nat.pow_eq, Nat.cast_mul, Nat.cast_pow, Nat.cast_ofNat]
  rw [mul_div_assoc, ← zpow_natCast, ← zpow_natCast, ← zpow_sub₀ ten, Int.toNat_sub_toNat_neg]

/-! ## Grammar -/

/-- What stands before the exponent, all its digits, and how many of them are behind the point. -/
inductive Mantissa : List Char → List Char → Nat → Prop where
  | whole {digits} :
    IsNumeral digits →
    Mantissa digits digits 0
  | pointed {whole part} :
    IsNumeral (whole ++ part) →
    Mantissa (whole ++ '.' :: part) (whole ++ part) part.length

/-- The exponent with its mark, and its value; it may be missing. -/
inductive Suffix : List Char → Int → Prop where
  | absent :
    Suffix [] 0
  | marked {mark digits} (sign : Sign) :
    mark = 'e' ∨ mark = 'E' →
    IsNumeral digits →
    Suffix (mark :: (sign.text ++ digits)) (sign.factor * numeralValue digits)

/-- The text, the exponent in it, and the number spelled. -/
inductive Spells : List Char → Int → ℚ → Prop where
  | mk {front digits places behind e} :
    Mantissa front digits places →
    Suffix behind e →
    Spells (front ++ behind) e (numeralValue digits * 10 ^ (e - places))

variable {cs front digits behind : List Char} {places : Nat} {e : Int}

/-- A mantissa has at least one digit. -/
lemma Mantissa.numeral (mt : Mantissa front digits places) : IsNumeral digits := by
  cases mt with
  | whole num => exact num
  | pointed num => exact num

/-- A mantissa is digits and a point. -/
lemma Mantissa.mem (mt : Mantissa front digits places) {c : Char} (mem : c ∈ front) :
    c.isDigit = true ∨ c = '.' := by
  cases mt with
  | whole num => exact .inl (num.digits c mem)
  | @pointed whole part num =>
    have digit := num.digits c
    simp only [List.mem_append, List.mem_cons] at mem digit
    rcases mem with mem | rfl | mem
    · exact .inl (digit (.inl mem))
    · exact .inr rfl
    · exact .inl (digit (.inr mem))

/-- No mantissa is empty. -/
lemma Mantissa.ne_nil (mt : Mantissa front digits places) : front ≠ [] := by
  cases mt with
  | whole num => exact num.some
  | pointed num => simp

/-- No exponent goes on with a mantissa. -/
lemma Suffix.stop (sx : Suffix behind e) :
    ∀ c ∈ behind.head?, c.isDigit = false ∧ c ≠ '.' := by
  cases sx with
  | absent => simp
  | marked sign is num =>
    intro c mem
    cases mem
    rcases is with rfl | rfl <;> decide

/-- An exponent has digits, its mark and signs only. -/
lemma Suffix.mem (sx : Suffix behind e) {c : Char} (mem : c ∈ behind) :
    c.isDigit = true ∨ c ∈ ['e', 'E', '+', '-'] := by
  cases sx with
  | absent => cases mem
  | marked sign is num =>
    rcases List.mem_cons.mp mem with rfl | mem
    · rcases is with rfl | rfl <;> decide
    · rcases List.mem_append.mp mem with mem | mem
      · right
        cases sign <;> simp_all [Sign.text]
      · exact .inl (num.digits c mem)

/-- No decimal starts with a sign. -/
lemma Spells.bare {q : ℚ} (sp : Spells cs e q) : Sign.Bare cs := by
  cases sp with
  | @mk front _ _ behind _ mt sx =>
    intro c mem
    obtain ⟨d, ds, rfl⟩ := List.exists_cons_of_ne_nil mt.ne_nil
    cases mem
    rcases mt.mem List.mem_cons_self with digit | rfl
    · constructor <;> rintro rfl <;> exact absurd digit (by decide)
    · decide

/-- A decimal has digits, points, exponent marks and signs only. -/
lemma Spells.mem {q : ℚ} (sp : Spells cs e q) {c : Char} (mem : c ∈ cs) :
    c.isDigit = true ∨ c ∈ ['.', 'e', 'E', '+', '-'] := by
  cases sp with
  | mk mt sx =>
    rcases List.mem_append.mp mem with mem | mem
    · exact (mt.mem mem).imp_right fun is => by simp [is]
    · exact (sx.mem mem).imp_right (List.mem_cons_of_mem _)

/-! ## Exponents -/

/-- As long as the exponent is counted, its digits come to their value. -/
lemma foldl_pushExponent (cs : List Char) {v : Nat} (small : Nat.ofDigitChars 10 cs v < 0x10000) :
    cs.foldl pushExponent v = Nat.ofDigitChars 10 cs v := by
  induction cs generalizing v with
  | nil => rfl
  | cons c cs ih =>
    have le := le_ofDigitChars (c :: cs) v
    have next : pushExponent v c = 10 * v + (c.toNat - '0'.toNat) := if_pos (by omega)
    rw [Nat.ofDigitChars_cons] at small ⊢
    rw [List.foldl_cons, next, ih small]

/-- An exponent is read from any run of digits. -/
lemma exponentDigits?_eq_some_iff {n : Nat} :
    exponentDigits? cs = some n ↔ IsNumeral cs ∧ n = cs.foldl pushExponent 0 := by
  have numeral : IsNumeral cs ↔ cs ≠ [] ∧ cs.all Char.isDigit = true := by
    rw [List.all_eq_true]
    exact ⟨fun num => ⟨num.some, num.digits⟩, fun num => ⟨num.1, num.2⟩⟩
  rw [exponentDigits?, numeral]
  split
  next num => rw [Option.some.injEq, and_iff_right num, eq_comm]
  next other => exact ⟨nofun, fun num => absurd num.1 other⟩

/-- An exponent is read behind its sign. -/
lemma exponent?_eq (cs : List Char) :
    exponent? cs = (exponentDigits? (Sign.split cs).2).map fun n : Nat =>
      (Sign.split cs).1.factor * (n : Int) := by
  have positive : Int.ofNat = fun n : Nat => (1 : Int) * n := by
    funext n
    exact (one_mul _).symm
  unfold exponent?
  split
  next ds =>
    cases found : exponentDigits? ds <;> simp [Sign.split, Sign.factor, Sign.isMinus, found]
  next => rw [positive]; rfl
  next minus plus => rw [Sign.split_of_ne minus plus, positive]; rfl

/-- An exponent is read, and exactly so below 65536. -/
lemma Suffix.read (sx : Suffix behind e) :
    ∃ e', suffix? behind = some e' ∧ (e.natAbs < 0x10000 → e' = e) := by
  cases sx with
  | absent => exact ⟨0, rfl, fun _ => rfl⟩
  | @marked mark digits sign is num =>
    have found := exponentDigits?_eq_some_iff.mpr ⟨num, rfl⟩
    refine ⟨sign.factor * (digits.foldl pushExponent 0 : Nat), ?_, fun small => ?_⟩
    · rw [suffix?, if_pos is, exponent?_eq, sign.split_text_append num.bare, found]
      rfl
    · have value : (sign.factor * numeralValue digits).natAbs = numeralValue digits := by
        rcases sign.factor_unit with unit | unit <;> simp [unit]
      rw [value] at small
      rw [foldl_pushExponent digits small]

/-- What is read as an exponent spells one. -/
lemma exists_suffix {e' : Int} (found : suffix? behind = some e') : ∃ e, Suffix behind e := by
  cases behind with
  | nil => exact ⟨0, .absent⟩
  | cons mark cs =>
    rw [suffix?] at found
    split at found
    next is =>
      rw [exponent?_eq] at found
      obtain ⟨n, digits, _⟩ := Option.map_eq_some_iff.mp found
      have num := (exponentDigits?_eq_some_iff.mp digits).1
      have sx := Suffix.marked (Sign.split cs).1 is num
      rw [Sign.text_append_split] at sx
      exact ⟨_, sx⟩
    next => cases found

/-! ## Decimals -/

/-- Without a point there are no digits behind it. -/
lemma fraction_of_ne (other : ∀ ds, cs = '.' :: ds → False) : fraction cs = ([], cs) := by
  unfold fraction
  split
  next => exact absurd rfl (other _)
  next => rfl

/-- A mantissa is read as far as it goes. -/
lemma Mantissa.read (mt : Mantissa front digits places)
    (stop : ∀ c ∈ behind.head?, c.isDigit = false ∧ c ≠ '.') :
    read? (front ++ behind) =
      (suffix? behind).map fun e => ⟨numeralValue digits, e - places⟩ := by
  have digitless : ∀ c ∈ behind.head?, c.isDigit = false := fun c mem => (stop c mem).1
  cases mt with
  | whole num =>
    obtain ⟨run, rest⟩ := takeWhile_append_stop num.digits digitless
    have pointless : ∀ ds, behind = '.' :: ds → False := by
      rintro ds rfl
      exact (stop '.' rfl).2 rfl
    rw [read?, run, rest, fraction_of_ne pointless]
    simp [num.some, digitsValue_eq]
  | @pointed whole part num =>
    obtain ⟨first, second⟩ := List.forall_mem_append.mp num.digits
    have point : ∀ c ∈ ('.' :: (part ++ behind)).head?, c.isDigit = false := by
      intro c mem
      cases mem
      rfl
    obtain ⟨run, rest⟩ := takeWhile_append_stop first point
    obtain ⟨run', rest'⟩ := takeWhile_append_stop second digitless
    rw [List.append_assoc, List.cons_append, read?, run, rest, fraction, run', rest']
    dsimp only
    rw [if_neg num.some, digitsValue_eq]

/-- What is read starts with a mantissa, and the rest is the exponent. -/
lemma exists_mantissa {d : Decimal} (found : read? cs = some d) :
    ∃ front digits places behind e, cs = front ++ behind ∧ Mantissa front digits places ∧
      suffix? behind = some e := by
  have run : ∀ ds : List Char, ∀ c ∈ ds.takeWhile Char.isDigit, c.isDigit = true :=
    fun _ _ => List.mem_takeWhile_imp
  have split := List.takeWhile_append_dropWhile (p := Char.isDigit) (l := cs)
  have first := run cs
  rw [read?] at found
  generalize cs.takeWhile Char.isDigit = whole at found split first
  generalize cs.dropWhile Char.isDigit = rest at found split
  subst split
  -- with a point there may be digits on either side of it, or on both
  by_cases point : ∃ ds, rest = '.' :: ds
  case pos =>
    obtain ⟨ds, rfl⟩ := point
    simp only [fraction] at found
    split at found
    next => cases found
    next some =>
      obtain ⟨e, suffix, _⟩ := Option.map_eq_some_iff.mp found
      have num : IsNumeral (whole ++ ds.takeWhile Char.isDigit) :=
        ⟨some, List.forall_mem_append.mpr ⟨first, run ds⟩⟩
      refine ⟨_, _, _, ds.dropWhile Char.isDigit, e, ?_, .pointed num, suffix⟩
      rw [List.append_assoc, List.cons_append, List.takeWhile_append_dropWhile]
  case neg =>
    rw [fraction_of_ne fun ds is => point ⟨ds, is⟩] at found
    simp only [List.append_nil] at found
    split at found
    next => cases found
    next some =>
      obtain ⟨e, suffix, _⟩ := Option.map_eq_some_iff.mp found
      exact ⟨whole, whole, 0, rest, e, rfl, .whole ⟨some, first⟩, suffix⟩

/-- Decimals are read from just the texts that spell one. -/
lemma exists_read?_iff : (∃ d, read? cs = some d) ↔ ∃ e q, Spells cs e q := by
  constructor
  · rintro ⟨d, found⟩
    obtain ⟨front, digits, places, behind, e', rfl, mt, suffix⟩ := exists_mantissa found
    obtain ⟨e, sx⟩ := exists_suffix suffix
    exact ⟨e, _, .mk mt sx⟩
  · rintro ⟨e, q, sp⟩
    cases sp with
    | mk mt sx =>
      obtain ⟨e', suffix, _⟩ := sx.read
      rw [mt.read sx.stop, suffix]
      exact ⟨_, rfl⟩

/-- The decimal that is read is the number spelled, with the point moved if the exponent is not
counted in full. -/
lemma Spells.read_shift {q : ℚ} (sp : Spells cs e q) :
    ∃ d, ∃ j : Int, read? cs = some d ∧ d.toRat = q * 10 ^ j ∧ (e.natAbs < 0x10000 → j = 0) := by
  cases sp with
  | @mk front digits places behind _ mt sx =>
    obtain ⟨e', suffix, same⟩ := sx.read
    rw [mt.read sx.stop, suffix]
    refine ⟨_, e' - e, rfl, ?_, fun small => sub_eq_zero.mpr (same small)⟩
    show (numeralValue digits * 10 ^ (e' - places) : ℚ) = _
    rw [mul_assoc, ← zpow_add₀ (by norm_num)]
    congr 2
    omega

/-- A decimal with an exponent below 65536 is read as the number it spells. -/
lemma Spells.read {q : ℚ} (sp : Spells cs e q) (small : e.natAbs < 0x10000) :
    ∃ d, read? cs = some d ∧ d.toRat = q := by
  obtain ⟨d, j, found, value, counted⟩ := sp.read_shift
  rw [counted small, zpow_zero, mul_one] at value
  exact ⟨d, found, value⟩

end Teletype.Decimal
