import Mathlib
import Teletype.Binary32.Reading
import Teletype.Proofs.Literal.Decimal

/-!
# Rounding to nearest

Magnitudes are in the order of the values they stand for (`value_strictMono`). `Rounds` says which
of them an exact number rounds to, by distances and significands alone: the closest one, of two as
close the one with the even significand, and infinity from halfway above the largest finite value
on. There is one at most (`Rounds.unique`), and it is the one that is found (`ofDecimal_rounds`).
-/

namespace Teletype.Binary32

/-! ## Values of magnitudes -/

/-- The fraction bits, with a leading one unless the magnitude is subnormal. -/
def significand (m : Nat) : Nat :=
  if m < 0x800000 then m else 0x800000 + m % 0x800000

/-- The power of two that the significand counts. -/
def scale (m : Nat) : Int :=
  max (m / 0x800000 : Nat) 1 - 150

/-- The number that a finite magnitude stands for. -/
def value (m : Nat) : ℚ :=
  significand m * 2 ^ scale m

/-- A value is its units of `2 ^ -149`. -/
lemma value_eq (m : Nat) : value m = units m / 2 ^ 149 := by
  unfold value significand scale units
  split
  next small =>
    rw [Nat.div_eq_of_lt small]
    norm_num [div_eq_mul_inv]
  next large =>
    have some : 1 ≤ m / 0x800000 := by omega
    have power : (max (m / 0x800000 : Nat) 1 - 150 : Int) = (m / 0x800000 - 1 : Nat) - 149 := by
      omega
    rw [power, zpow_sub₀ two_ne_zero, zpow_natCast, Nat.pow_eq]
    push_cast
    rw [mul_div_assoc]
    rfl

/-- Between two magnitudes the value grows by one step of the lower one's power of two. -/
lemma units_succ (m : Nat) : units (m + 1) = units m + 2 ^ (m / 0x800000 - 1) := by
  unfold units
  simp only [Nat.pow_eq]
  by_cases carry : m % 0x800000 = 0x7FFFFF
  case neg =>
    have same : (m + 1) / 0x800000 = m / 0x800000 := by omega
    have next : (m + 1) % 0x800000 = m % 0x800000 + 1 := by omega
    rw [same, next]
    split
    next small => rw [if_pos (by omega), Nat.div_eq_of_lt (by omega), Nat.zero_sub, pow_zero]
    next large =>
      rw [if_neg (by omega)]
      ring
  case pos =>
    have next : (m + 1) / 0x800000 = m / 0x800000 + 1 := by omega
    have zero : (m + 1) % 0x800000 = 0 := by omega
    rw [next, zero, carry, if_neg (by omega)]
    split
    next small => rw [Nat.div_eq_of_lt small]; omega
    next large =>
      obtain ⟨e, exp⟩ : ∃ e, m / 0x800000 = e + 1 := ⟨m / 0x800000 - 1, by omega⟩
      simp only [exp, Nat.add_sub_cancel]
      ring

/-- A greater magnitude has more units. -/
lemma units_strictMono : StrictMono units := by
  apply strictMono_nat_of_lt_succ
  intro m
  rw [units_succ]
  exact Nat.lt_add_of_pos_right (Nat.two_pow_pos _)

/-- A greater magnitude has a greater value. -/
lemma value_strictMono : StrictMono value := by
  intro m k lt
  have grows := units_strictMono lt
  rw [value_eq, value_eq]
  gcongr

/-- A magnitude is even just when its significand is. -/
lemma even_significand (m : Nat) : Even (significand m) ↔ Even m := by
  rw [Nat.even_iff, Nat.even_iff]
  unfold significand
  split <;> omega

/-! ## The nearest magnitude -/

/-- Halfway between the largest finite value and the next power of two. -/
def overflowThreshold : ℚ :=
  (2 ^ 25 - 1) * 2 ^ 103

/-- The exact number rounds to the magnitude. -/
structure Rounds (q : ℚ) (m : Nat) : Prop where
  bound : m ≤ infinity
  overflow : m = infinity ↔ overflowThreshold ≤ q
  closest : m < infinity → ∀ k < infinity, |q - value m| ≤ |q - value k|
  even : m < infinity → ∀ k < infinity, k ≠ m → |q - value k| = |q - value m| →
    Even (significand m)

/-- From halfway on, the number above is at least as close. -/
lemma abs_sub_le_of_le {a b q : ℚ} (le : a ≤ b) (above : a + b ≤ 2 * q) :
    |q - b| ≤ |q - a| := by
  rw [abs_of_nonneg (by linarith : 0 ≤ q - a), abs_le]
  constructor <;> linarith

/-- Up to halfway, the number below is at least as close. -/
lemma abs_sub_le_of_ge {a b q : ℚ} (le : a ≤ b) (below : 2 * q ≤ a + b) :
    |q - a| ≤ |q - b| := by
  rw [abs_of_nonpos (by linarith : q - b ≤ 0), abs_le]
  constructor <;> linarith

/-- Only what lies halfway is as far from two numbers. -/
lemma two_mul_of_abs_sub_eq {a b q : ℚ} (apart : a ≠ b) (same : |q - a| = |q - b|) :
    2 * q = a + b := by
  rcases abs_eq_abs.mp same with same | same
  · exact absurd (by linarith) apart
  · linarith

/-- A number rounds to one magnitude at most. -/
lemma Rounds.unique {q m k} (rm : Rounds q m) (rk : Rounds q k) : m = k := by
  wlog le : m ≤ k generalizing m k
  · exact (this rk rm (Nat.le_of_not_le le)).symm
  by_contra apart
  have lt : m < k := Nat.lt_of_le_of_ne le apart
  have fm : m < infinity := lt_of_lt_of_le lt rk.bound
  have fk : k < infinity := by
    refine lt_of_le_of_ne rk.bound fun is => ?_
    exact fm.ne (rm.overflow.mpr (rk.overflow.mp is))
  have same : |q - value m| = |q - value k| := le_antisymm (rm.closest fm k fk) (rk.closest fk m fm)
  have half : 2 * q = value m + value k :=
    two_mul_of_abs_sub_eq (value_strictMono.injective.ne apart) same
  -- both are even, so a magnitude between them is closer than either
  have em := (even_significand m).mp (rm.even fm k fk (Ne.symm apart) same.symm)
  have ek := (even_significand k).mp (rk.even fk m fm apart same)
  have between : m + 1 < k := by
    rw [Nat.even_iff] at em ek
    omega
  have above := value_strictMono (Nat.lt_succ_self m)
  have below := value_strictMono between
  have far := rm.closest fm (m + 1) (between.trans fk)
  rw [abs_of_nonneg (by linarith : 0 ≤ q - value m), le_abs] at far
  rcases far with far | far <;> linarith

/-! ## Reaching a magnitude -/

/-- The exact number is not below the midpoint under the magnitude, and at the midpoint itself the
magnitude is even. -/
def Reaches (q : ℚ) : Nat → Prop
  | 0 => True
  | m + 1 =>
    value m + value (m + 1) < 2 * q ∨ value m + value (m + 1) = 2 * q ∧ Even (m + 1)

/-- A number that reaches a magnitude is not below the midpoint under it. -/
lemma Reaches.le {q m} (rc : Reaches q (m + 1)) : value m + value (m + 1) ≤ 2 * q :=
  rc.elim le_of_lt fun half => half.1.le

/-- A number that reaches a magnitude reaches the one before it. -/
lemma Reaches.of_succ {q m} (rc : Reaches q (m + 1)) : Reaches q m := by
  cases m with
  | zero => trivial
  | succ m =>
    have first := value_strictMono (Nat.lt_succ_self m)
    have second := value_strictMono (Nat.lt_succ_self (m + 1))
    have le := rc.le
    exact .inl (by linarith)

/-- A number that reaches a magnitude reaches all those below. -/
lemma Reaches.of_le {q k m} (rc : Reaches q m) (le : k ≤ m) : Reaches q k := by
  induction m, le using Nat.le_induction with
  | base => exact rc
  | succ m _ ih => exact ih rc.of_succ

/-- Reaching is decided on the numerator and the denominator. -/
lemma reaches_iff (n : Nat) {d : Nat} (pos : 0 < d) (m : Nat) :
    reaches n d m = true ↔ Reaches (n / d) m := by
  cases m with
  | zero => simp [reaches, Reaches]
  | succ m =>
    have pos' : (0 : ℚ) < d := by exact_mod_cast pos
    have sum : value m + value (m + 1) = (d * (units m + units (m + 1)) : Nat) / (d * 2 ^ 149) := by
      rw [value_eq, value_eq]
      push_cast
      field_simp
    have twice : 2 * (n / d : ℚ) = (n * Nat.pow 2 150 : Nat) / (d * 2 ^ 149) := by
      rw [Nat.pow_eq]
      push_cast
      field_simp
      ring
    have scale : (0 : ℚ) < d * 2 ^ 149 := by positivity
    rw [Reaches, sum, twice, div_lt_div_iff_of_pos_right scale, div_left_inj' scale.ne',
      Nat.cast_lt, Nat.cast_inj, Nat.even_iff, reaches]
    split
    next even => simp [even, le_iff_lt_or_eq]
    next odd => simp [odd]

/-- Climbing finds the greatest number under the bound with a property that holds from there
down. -/
lemma climb_greatest {p : Nat → Bool} (down : ∀ k m, k ≤ m → p m = true → p k = true) (k : Nat)
    {m : Nat} (bound : m ≤ infinity) (start : p m = true) :
    climb p k m ≤ infinity ∧ p (climb p k m) = true ∧
      ∀ j, climb p k m < j → j < m + 2 ^ k → j ≤ infinity → p j = false := by
  induction k generalizing m with
  | zero =>
    refine ⟨bound, start, fun j above below => ?_⟩
    rw [climb] at above
    omega
  | succ k ih =>
    have double : m + 2 ^ (k + 1) = m + 2 ^ k + 2 ^ k := by ring
    rw [climb]
    simp only [Nat.pow_eq]
    split
    next next =>
      rw [double]
      exact ih next.1 next.2
    next stop =>
      -- the bit stays clear, and what lies from there on does not have the property
      obtain ⟨bound, found, greatest⟩ := ih bound start
      refine ⟨bound, found, fun j above below le => ?_⟩
      by_cases far : j < m + 2 ^ k
      · exact greatest j above far le
      · rw [Bool.eq_false_iff]
        intro holds
        have reached := down (m + 2 ^ k) j (Nat.le_of_not_lt far) holds
        exact stop ⟨(Nat.le_of_not_lt far).trans le, reached⟩

/-- The magnitude is the greatest one reached, up to infinity. -/
structure Greatest (q : ℚ) (m : Nat) : Prop where
  bound : m ≤ infinity
  reached : Reaches q m
  next : m < infinity → ¬ Reaches q (m + 1)

/-- The search ends at the greatest magnitude reached. -/
lemma nearest_greatest (n : Nat) {d : Nat} (pos : 0 < d) : Greatest (n / d) (nearest n d) := by
  have down : ∀ k m, k ≤ m → reaches n d m = true → reaches n d k = true := by
    intro k m le rc
    rw [reaches_iff n pos] at rc ⊢
    exact rc.of_le le
  obtain ⟨bound, reached, greatest⟩ := climb_greatest down 31 (Nat.zero_le infinity) rfl
  refine ⟨bound, (reaches_iff n pos _).mp reached, fun finite rc => ?_⟩
  have near : nearest n d + 1 < 0 + 2 ^ 31 := by
    unfold infinity at finite
    omega
  have none := greatest _ (Nat.lt_succ_self _) near finite
  rw [Bool.eq_false_iff] at none
  exact none ((reaches_iff n pos _).mpr rc)

/-- The last midpoint is the one under infinity. -/
lemma value_add_value_infinity :
    value (infinity - 1) + value infinity = 2 * overflowThreshold := by
  simp only [value_eq, units, infinity, overflowThreshold]
  norm_num

/-- Infinity is reached from the overflow threshold on. -/
lemma reaches_infinity {q : ℚ} : Reaches q infinity ↔ overflowThreshold ≤ q := by
  have even : Even infinity := by decide
  have two : (0 : ℚ) < 2 := two_pos
  show value (infinity - 1) + value infinity < 2 * q ∨
    value (infinity - 1) + value infinity = 2 * q ∧ Even infinity ↔ _
  rw [value_add_value_infinity, mul_lt_mul_iff_right₀ two, mul_right_inj' two.ne', le_iff_lt_or_eq,
    and_iff_left even]

/-- A number rounds to the greatest magnitude it reaches. -/
lemma Greatest.rounds {q m} (gr : Greatest q m) : Rounds q m where
  bound := gr.bound
  overflow := by
    rw [← reaches_infinity]
    refine ⟨fun is => is ▸ gr.reached, fun rc => ?_⟩
    by_contra finite
    have lt := lt_of_le_of_ne gr.bound finite
    exact gr.next lt (rc.of_le lt)
  closest finite k _ := by
    -- every other magnitude lies beyond one of the midpoints next to `m`
    rcases lt_trichotomy k m with lt | rfl | lt
    · obtain ⟨j, rfl⟩ := Nat.exists_eq_succ_of_ne_zero (Nat.ne_zero_of_lt lt)
      have le := value_strictMono.monotone (Nat.le_of_lt_succ lt)
      have half := gr.reached.le
      exact abs_sub_le_of_le (value_strictMono.monotone lt.le) (by linarith)
    · rfl
    · have le := value_strictMono.monotone (Nat.succ_le_of_lt lt)
      have half := not_lt.mp fun past => gr.next finite (.inl past)
      exact abs_sub_le_of_ge (value_strictMono.monotone lt.le) (by linarith)
  even finite k _ apart same := by
    rw [even_significand]
    have half := two_mul_of_abs_sub_eq (value_strictMono.injective.ne apart) same
    -- the number is the midpoint on one side, and there the even neighbour is reached
    rcases lt_or_gt_of_ne apart with lt | lt
    · obtain ⟨j, rfl⟩ := Nat.exists_eq_succ_of_ne_zero (Nat.ne_zero_of_lt lt)
      have le := value_strictMono.monotone (Nat.le_of_lt_succ lt)
      rcases gr.reached with past | ⟨_, even⟩
      · linarith
      · exact even
    · have le := value_strictMono.monotone (Nat.succ_le_of_lt lt)
      have stop := gr.next finite
      have middle : value m + value (m + 1) = 2 * q :=
        le_antisymm (by linarith) (not_lt.mp fun past => stop (.inl past))
      by_contra odd
      exact stop (.inr ⟨middle, (Nat.not_even_iff_odd.mp odd).add_one⟩)

/-- What is found for a decimal is what its exact value rounds to. -/
lemma ofDecimal_rounds (d : Decimal) : Rounds d.toRat (ofDecimal d) := by
  rw [← d.numerator_div_denominator]
  exact (nearest_greatest d.numerator d.denominator_pos).rounds

/-- A finite value rounds to its own magnitude. -/
lemma rounds_value {m : Nat} (finite : m < infinity) : Rounds (value m) m where
  bound := finite.le
  overflow := by
    refine ⟨fun is => absurd is finite.ne, fun past => ?_⟩
    have le := value_strictMono.monotone (Nat.le_sub_one_of_lt finite)
    have lt := value_strictMono (show infinity - 1 < infinity by decide)
    have half := value_add_value_infinity
    linarith
  closest _ k _ := by simp
  even _ k _ apart same := by
    rw [sub_self, abs_zero, abs_eq_zero, sub_eq_zero] at same
    exact absurd (value_strictMono.injective same.symm) apart

end Teletype.Binary32
