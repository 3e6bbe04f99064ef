import Mathlib
import Teletype.Proofs.Binary32.RoundTrip
import Teletype.Proofs.Literal.Significant

/-!
# No shorter decimal

The numbers that round to one magnitude lie together (`Greatest.between`). A decimal of few digits
is never strictly between the two neighbours of the exact value on the grid of as many digits
(`outside_of_hasDigits`), so if such a decimal rounds to the magnitude then so does a neighbour, and
it is the one found that is at least as close (`neighbour?_closest`). On the grid of nine digits the
nearer neighbour always does (`neighbour?_nine`). The shortest decimal comes from the first grid on
which there is one: no decimal of fewer digits rounds to the magnitude, and none of as many is
closer (`shortest_least`).
-/

namespace Teletype.Binary32

variable {p q r : ℚ} {m zeros : Nat}

/-! ## What rounds to a magnitude -/

/-- A greater number reaches all that a smaller one does. -/
lemma Reaches.of_ge (rc : Reaches p m) (le : p ≤ q) : Reaches q m := by
  cases m with
  | zero => trivial
  | succ m =>
    rcases rc with past | ⟨half, even⟩
    · exact .inl (by linarith)
    · rcases le.lt_or_eq with lt | rfl
      · exact .inl (by linarith)
      · exact .inr ⟨half, even⟩

/-- What lies between two numbers that round to a magnitude rounds to it. -/
lemma Greatest.between (low : Greatest p m) (high : Greatest r m) (le : p ≤ q) (ge : q ≤ r) :
    Greatest q m where
  bound := low.bound
  reached := low.reached.of_ge le
  next finite rc := high.next finite (rc.of_ge ge)

/-- A decimal is read as the greatest magnitude it reaches. -/
lemma ofDecimal_eq_iff {d : Decimal} : ofDecimal d = m ↔ Greatest d.toRat m := by
  constructor
  · rintro rfl
    rw [← d.numerator_div_denominator]
    exact nearest_greatest d.numerator d.denominator_pos
  · intro gr
    exact (ofDecimal_rounds d).unique gr.rounds

/-- A value rounds to its own magnitude. -/
lemma greatest_value (finite : m < infinity) : Greatest (value m) m := by
  rw [← scaled_toRat, ← ofDecimal_eq_iff]
  have rounds := ofDecimal_rounds ⟨scaled m, -149⟩
  rw [scaled_toRat] at rounds
  exact rounds.unique (rounds_value finite)

/-! ## Gaps between values -/

/-- Between two magnitudes the value grows by one step of the lower one's power of two. -/
lemma value_succ (m : Nat) : value (m + 1) = value m + 2 ^ (m / 0x800000 - 1) / 2 ^ 149 := by
  rw [value_eq, value_eq, units_succ]
  push_cast
  rw [add_div]

/-- A value has at most 24 bits in front of the gap above it, and at least one. -/
lemma units_bounds (m : Nat) (positive : 0 < m) :
    2 ^ (m / 0x800000 - 1) ≤ units m ∧ units m < 2 ^ 24 * 2 ^ (m / 0x800000 - 1) := by
  have gap : 0 < 2 ^ (m / 0x800000 - 1) := by positivity
  unfold units
  rw [Nat.pow_eq]
  split_ifs with small
  · rw [Nat.div_eq_of_lt small, Nat.zero_sub, pow_zero]
    omega
  · have bits : 0x800000 + m % 0x800000 < 2 ^ 24 := by omega
    exact ⟨Nat.le_mul_of_pos_left _ (by omega), Nat.mul_lt_mul_of_pos_right bits gap⟩

/-- A value is less than 2²⁴ times the gap above it. -/
lemma value_lt_gap (positive : 0 < m) : value m < 2 ^ 24 * (value (m + 1) - value m) := by
  have lt : (units m : ℚ) < 2 ^ 24 * 2 ^ (m / 0x800000 - 1) := by
    exact_mod_cast (units_bounds m positive).2
  rw [value_succ, add_sub_cancel_left, value_eq, ← mul_div_assoc]
  gcongr

/-- A value is no less than the gap above it. -/
lemma gap_le_value (positive : 0 < m) : value (m + 1) - value m ≤ value m := by
  have le : (2 ^ (m / 0x800000 - 1) : ℚ) ≤ units m := by
    exact_mod_cast (units_bounds m positive).1
  rw [value_succ, add_sub_cancel_left, value_eq]
  gcongr

/-- From one gap to the next there is a factor of two at most. -/
lemma gap_succ_le (m : Nat) :
    value (m + 2) - value (m + 1) ≤ 2 * (value (m + 1) - value m) := by
  have exponent : (m + 1) / 0x800000 - 1 ≤ m / 0x800000 - 1 + 1 := by omega
  have le : (2 : ℚ) ^ ((m + 1) / 0x800000 - 1) ≤ 2 * 2 ^ (m / 0x800000 - 1) := by
    rw [← pow_succ']
    exact pow_le_pow_right₀ one_le_two exponent
  rw [value_succ (m + 1), value_succ m, add_sub_cancel_left, add_sub_cancel_left, ← mul_div_assoc]
  gcongr

/-- What rounds to a magnitude is not beyond the midpoint above it. -/
lemma Greatest.le_value (gr : Greatest q m) (finite : m < infinity) :
    2 * q ≤ value m + value (m + 1) :=
  not_lt.mp fun past => gr.next finite (.inl past)

/-- What rounds to a magnitude is no more than half of its value away from it. -/
lemma Greatest.near (gr : Greatest q m) (positive : 0 < m) (finite : m < infinity) :
    value m ≤ 2 * q ∧ 2 * q ≤ 3 * value m := by
  obtain ⟨k, rfl⟩ := Nat.exists_eq_succ_of_ne_zero positive.ne'
  have low := gr.reached.le
  have high := gr.le_value finite
  have gap := gap_le_value positive
  have zero : 0 ≤ value k := value_zero ▸ value_strictMono.monotone k.zero_le
  exact ⟨by linarith, by linarith⟩

/-- What rounds to a positive magnitude is positive. -/
lemma Greatest.pos (gr : Greatest q m) (positive : 0 < m) (finite : m < infinity) : 0 < q := by
  have near := (gr.near positive finite).1
  have some := value_strictMono positive
  rw [value_zero] at some
  linarith

/-! ## Grids -/

/-- The greatest point of a grid that is not above the value. -/
def lower (m zeros : Nat) : Decimal :=
  onGrid zeros (scaled m / 10 ^ zeros)

/-- The point of the grid behind it. -/
def upper (m zeros : Nat) : Decimal :=
  onGrid zeros (scaled m / 10 ^ zeros + 1)

/-- A point of a grid is a multiple of the grid's step. -/
lemma onGrid_toRat (zeros c : Nat) : (onGrid zeros c).toRat = c * 10 ^ (zeros - 149 : Int) :=
  rfl

/-- The step of a grid, in units of `10 ^ -149`. -/
lemma ten_zpow_grid (zeros : Nat) :
    (10 : ℚ) ^ (zeros - 149 : Int) = 10 ^ zeros * 10 ^ (-149 : Int) := by
  rw [sub_eq_add_neg, zpow_add₀ ten, zpow_natCast]

/-- Points of a grid are compared with other numbers in units of `10 ^ -149`. -/
lemma onGrid_le_iff {c s : Nat} :
    (onGrid zeros c).toRat ≤ (s * 10 ^ (-149 : Int) : ℚ) ↔ c * 10 ^ zeros ≤ s := by
  have unit : (0 : ℚ) < 10 ^ (-149 : Int) := by positivity
  rw [onGrid_toRat, ten_zpow_grid, ← mul_assoc, mul_le_mul_iff_left₀ unit]
  exact_mod_cast Iff.rfl

/-- A value in units of `10 ^ -149`. -/
lemma value_eq_scaled (m : Nat) : value m = scaled m * 10 ^ (-149 : Int) :=
  (scaled_toRat m).symm

/-- The lower neighbour is not above the value. -/
lemma lower_le (m zeros : Nat) : (lower m zeros).toRat ≤ value m := by
  rw [value_eq_scaled, lower, onGrid_le_iff]
  exact Nat.div_mul_le_self _ _

/-- The upper neighbour is above the value. -/
lemma lt_upper (m zeros : Nat) : value m < (upper m zeros).toRat := by
  rw [← not_le, value_eq_scaled, upper, onGrid_le_iff, not_le, mul_comm]
  exact Nat.lt_mul_div_succ _ (by positivity)

/-- The neighbours are one step of the grid apart. -/
lemma upper_eq (m zeros : Nat) :
    (upper m zeros).toRat = (lower m zeros).toRat + 10 ^ (zeros - 149 : Int) := by
  rw [upper, lower, onGrid_toRat, onGrid_toRat]
  push_cast
  ring

/-- How far the midpoint of the neighbours is from the value, twice. -/
lemma sum_neighbours (m zeros : Nat) :
    (lower m zeros).toRat + (upper m zeros).toRat - 2 * value m =
      (10 ^ zeros - 2 * (scaled m % 10 ^ zeros : Nat)) * 10 ^ (-149 : Int) := by
  have split : (scaled m : ℚ) =
      10 ^ zeros * (scaled m / 10 ^ zeros : Nat) + (scaled m % 10 ^ zeros : Nat) := by
    exact_mod_cast (Nat.div_add_mod _ _).symm
  rw [upper_eq, lower, onGrid_toRat, ten_zpow_grid, value_eq_scaled, split]
  ring

/-- With a small remainder the value is not above the midpoint. -/
lemma le_sum_neighbours (small : 2 * (scaled m % 10 ^ zeros) ≤ 10 ^ zeros) :
    2 * value m ≤ (lower m zeros).toRat + (upper m zeros).toRat := by
  have small' : (2 * (scaled m % 10 ^ zeros : Nat) : ℚ) ≤ 10 ^ zeros := by exact_mod_cast small
  rw [← sub_nonneg, sum_neighbours]
  exact mul_nonneg (sub_nonneg.mpr small') (by positivity)

/-- With a large remainder the value is not below the midpoint. -/
lemma sum_neighbours_le (large : 10 ^ zeros ≤ 2 * (scaled m % 10 ^ zeros)) :
    (lower m zeros).toRat + (upper m zeros).toRat ≤ 2 * value m := by
  have large' : (10 ^ zeros : ℚ) ≤ 2 * (scaled m % 10 ^ zeros : Nat) := by exact_mod_cast large
  rw [← sub_nonpos, sum_neighbours]
  exact mul_nonpos_of_nonpos_of_nonneg (sub_nonpos.mpr large') (by positivity)

/-- The points of a grid are in the order of their numbers. -/
lemma onGrid_mono {a b : Nat} : (onGrid zeros a).toRat ≤ (onGrid zeros b).toRat ↔ a ≤ b := by
  have step : (0 : ℚ) < 10 ^ (zeros - 149 : Int) := by positivity
  rw [onGrid_toRat, onGrid_toRat, mul_le_mul_iff_left₀ step, Nat.cast_le]

/-- Decimals with no lower exponent than the grid are on it. -/
lemma exists_onGrid (c : Nat) {e : Int} (coarse : zeros - 149 ≤ e) :
    ∃ k, (c * 10 ^ e : ℚ) = (onGrid zeros k).toRat := by
  obtain ⟨j, rfl⟩ := Int.le.dest coarse
  refine ⟨c * 10 ^ j, ?_⟩
  rw [onGrid_toRat, zpow_add₀ ten, zpow_natCast]
  push_cast
  ring

/-- A decimal with no more digits than the points of a grid is none of the numbers between two
neighbours on it. -/
lemma outside_of_hasDigits {n : Nat} (has : HasDigits (n + 1) q)
    (long : 10 ^ (n + zeros) ≤ scaled m) :
    q ≤ (lower m zeros).toRat ∨ (upper m zeros).toRat ≤ q := by
  obtain ⟨c, e, lt, rfl⟩ := has
  rcases le_or_gt (zeros - 149 : Int) e with coarse | fine
  · obtain ⟨k, onto⟩ := exists_onGrid c coarse
    rw [onto, lower, upper, onGrid_mono, onGrid_mono]
    exact (Nat.lt_or_ge _ _).symm
  · -- the decimal is below all points of the grid that have so many digits
    left
    have digits : 10 ^ n ≤ scaled m / 10 ^ zeros := by
      rwa [Nat.le_div_iff_mul_le (by positivity), ← pow_add]
    calc (c * 10 ^ e : ℚ) ≤ 10 ^ (n + 1) * 10 ^ (zeros - 149 - 1 : Int) := by
          gcongr
          · exact_mod_cast lt.le
          · norm_num
          · omega
      _ = 10 ^ n * 10 ^ (zeros - 149 : Int) := by
          rw [zpow_sub_one₀ ten, pow_succ]
          field_simp
      _ ≤ (scaled m / 10 ^ zeros : Nat) * 10 ^ (zeros - 149 : Int) := by
          gcongr
          exact_mod_cast digits

/-! ## Neighbours -/

/-- The two neighbours of the value on a grid, one first that is not farther from it. -/
inductive Neighbours (m zeros : Nat) : Decimal → Decimal → Prop where
  | down :
    2 * value m ≤ (lower m zeros).toRat + (upper m zeros).toRat →
    Neighbours m zeros (lower m zeros) (upper m zeros)
  | up :
    (lower m zeros).toRat + (upper m zeros).toRat ≤ 2 * value m →
    Neighbours m zeros (upper m zeros) (lower m zeros)

/-- The nearer neighbour is tried first, then the other one. -/
lemma neighbour?_eq (m zeros : Nat) : ∃ near far, Neighbours m zeros near far ∧
    neighbour? m (scaled m) zeros =
      if ofDecimal near = m then some near else if ofDecimal far = m then some far else none := by
  have apart :
      onGrid zeros (scaled m / 10 ^ zeros + 1) ≠ onGrid zeros (scaled m / 10 ^ zeros) := by
    simp [onGrid]
  unfold neighbour?
  by_cases first : 2 * (scaled m % 10 ^ zeros) < 10 ^ zeros ∨
      2 * (scaled m % 10 ^ zeros) = 10 ^ zeros ∧ scaled m / 10 ^ zeros % 2 = 0
  case pos =>
    have small := first.elim le_of_lt fun half => half.1.le
    refine ⟨lower m zeros, upper m zeros, .down (le_sum_neighbours small), ?_⟩
    simp only [Nat.pow_eq, if_pos first, if_true]
    rfl
  case neg =>
    have large := not_lt.mp fun lt => first (.inl lt)
    refine ⟨upper m zeros, lower m zeros, .up (sum_neighbours_le large), ?_⟩
    simp only [Nat.pow_eq, if_neg first, if_neg apart]
    rfl

variable {near far d : Decimal}

/-- Each of the two points is one of the neighbours. -/
lemma Neighbours.mem (nb : Neighbours m zeros near far)
    (is : d = lower m zeros ∨ d = upper m zeros) : d = near ∨ d = far := by
  cases nb with
  | down => exact is
  | up => exact is.symm

/-- The first neighbour is at least as close as the second. -/
lemma Neighbours.closer (nb : Neighbours m zeros near far) :
    |value m - near.toRat| ≤ |value m - far.toRat| := by
  have low := lower_le m zeros
  have high := (lt_upper m zeros).le
  cases nb with
  | down half => exact abs_sub_le_of_ge (low.trans high) half
  | up half => exact abs_sub_le_of_le (low.trans high) half

/-- If a number that is not between the neighbours rounds to the magnitude, then so does the
neighbour on its side, which is at least as close to the value. -/
lemma exists_neighbour (finite : m < infinity) (gr : Greatest q m)
    (outside : q ≤ (lower m zeros).toRat ∨ (upper m zeros).toRat ≤ q) :
    ∃ d, (d = lower m zeros ∨ d = upper m zeros) ∧ ofDecimal d = m ∧
      |value m - d.toRat| ≤ |value m - q| := by
  have own := greatest_value finite
  have low := lower_le m zeros
  have high := (lt_upper m zeros).le
  rcases outside with below | above
  · refine ⟨_, .inl rfl, ofDecimal_eq_iff.mpr (gr.between own below low), ?_⟩
    exact abs_sub_le_of_le below (by linarith)
  · refine ⟨_, .inr rfl, ofDecimal_eq_iff.mpr (own.between gr high above), ?_⟩
    exact abs_sub_le_of_ge above (by linarith)

/-- The neighbour that is found is the closer one of those that round to the magnitude. -/
lemma neighbour?_closest (finite : m < infinity) (gr : Greatest q m)
    (outside : q ≤ (lower m zeros).toRat ∨ (upper m zeros).toRat ≤ q) :
    ∃ d, neighbour? m (scaled m) zeros = some d ∧ |value m - d.toRat| ≤ |value m - q| := by
  obtain ⟨near, far, nb, found⟩ := neighbour?_eq m zeros
  obtain ⟨d, is, reads, closer⟩ := exists_neighbour finite gr outside
  rw [found]
  by_cases first : ofDecimal near = m
  case pos =>
    refine ⟨near, if_pos first, ?_⟩
    rcases nb.mem is with rfl | rfl
    · exact closer
    · exact nb.closer.trans closer
  case neg =>
    rcases nb.mem is with rfl | rfl
    · exact absurd reads first
    · exact ⟨d, (if_neg first).trans (if_pos reads), closer⟩

/-- A number that is closer to the value than a quarter of the gap above rounds to the magnitude. -/
lemma greatest_of_abs_sub_lt (positive : 0 < m) (finite : m < infinity)
    (close : |value m - q| * 4 < value (m + 1) - value m) : Greatest q m := by
  obtain ⟨k, rfl⟩ := Nat.exists_eq_succ_of_ne_zero positive.ne'
  have gap := gap_succ_le k
  have below := le_abs_self (value (k + 1) - q)
  have above := neg_abs_le (value (k + 1) - q)
  refine ⟨finite.le, .inl ?_, fun _ rc => ?_⟩
  · linarith
  · have past := rc.le
    linarith

/-- The first neighbour is no farther than half a step away. -/
lemma Neighbours.near_le (nb : Neighbours m zeros near far) :
    2 * |value m - near.toRat| ≤ 10 ^ (zeros - 149 : Int) := by
  have low := lower_le m zeros
  have high := lt_upper m zeros
  have step := upper_eq m zeros
  cases nb with
  | down half =>
    rw [abs_of_nonneg (by linarith)]
    linarith
  | up half =>
    rw [abs_of_nonpos (by linarith)]
    linarith

/-- On a grid of nine digits the nearer neighbour rounds to the magnitude. -/
lemma neighbour?_nine (positive : 0 < m) (finite : m < infinity)
    (long : 10 ^ (8 + zeros) ≤ scaled m) : ∃ d, neighbour? m (scaled m) zeros = some d := by
  obtain ⟨near, far, nb, found⟩ := neighbour?_eq m zeros
  have half := nb.near_le
  have gap := value_lt_gap positive
  have fine : 10 ^ 8 * 10 ^ (zeros - 149 : Int) ≤ value m := by
    have long' : (10 ^ 8 * 10 ^ zeros : ℚ) ≤ scaled m := by
      exact_mod_cast pow_add 10 8 zeros ▸ long
    rw [ten_zpow_grid, value_eq_scaled, ← mul_assoc]
    gcongr
  have step : (0 : ℚ) < 10 ^ (zeros - 149 : Int) := by positivity
  have close : |value m - near.toRat| * 4 < value (m + 1) - value m := by linarith
  have reads := ofDecimal_eq_iff.mpr (greatest_of_abs_sub_lt positive finite close)
  exact ⟨near, by rw [found, if_pos reads]⟩

/-! ## The shortest decimal -/

/-- The number of digits of the value in units of `10 ^ -149`. -/
abbrev scaledLength (m : Nat) : Nat :=
  (Nat.toDigits 10 (scaled m)).length

/-- A positive value has at least nine digits in units of `10 ^ -149`, and lies between powers of
ten. -/
lemma scaledLength_bounds (positive : 0 < m) : 9 ≤ scaledLength m ∧
    10 ^ (scaledLength m - 1) ≤ scaled m ∧ scaled m < 10 ^ scaledLength m := by
  have some : 1 ≤ units m := (Nat.one_le_two_pow).trans (units_bounds m positive).1
  have large : 10 ^ 8 ≤ scaled m :=
    calc 10 ^ 8 ≤ 1 * 5 ^ 149 := by norm_num
      _ ≤ units m * 5 ^ 149 := Nat.mul_le_mul_right _ some
  have length : ∀ k, 0 < k → (scaledLength m ≤ k ↔ scaled m < 10 ^ k) :=
    fun k => Nat.length_toDigits_le_iff (by decide)
  have nine : 9 ≤ scaledLength m := by
    by_contra short
    exact absurd ((length 8 (by decide)).mp (by omega)) (Nat.not_lt_of_le large)
  refine ⟨nine, ?_, (length _ (by omega)).mp le_rfl⟩
  by_contra lt
  have le := (length _ (by omega)).mpr (Nat.lt_of_not_le lt)
  omega

/-- What is found on the way up from one is found at the first number with anything to find. -/
lemma findSome?_range'_one {α} {f : Nat → Option α} {n : Nat} {a : α}
    (found : (List.range' 1 n).findSome? f = some a) :
    ∃ k < n, f (k + 1) = some a ∧ ∀ j < k, f (j + 1) = none := by
  obtain ⟨front, i, behind, split, found, before⟩ := List.findSome?_eq_some_iff.mp found
  obtain ⟨k, le, rfl, rest⟩ := List.range'_eq_append_iff.mp split
  obtain ⟨rfl, some, -⟩ := List.range'_eq_cons_iff.mp rest.symm
  rw [mul_one, add_comm] at found
  refine ⟨k, by omega, found, fun j lt => before (j + 1) ?_⟩
  rw [List.mem_range'_1]
  omega

/-- The shortest decimal is the first one that is found on the grids of one digit, of two and so
on. -/
lemma shortest_first (positive : 0 < m) (finite : m < infinity) :
    ∃ n, neighbour? m (scaled m) (scaledLength m - (n + 1)) = some (shortest m) ∧
      n < scaledLength m ∧
      ∀ k < n, neighbour? m (scaled m) (scaledLength m - (k + 1)) = none := by
  obtain ⟨nine, low, -⟩ := scaledLength_bounds positive
  have long : 10 ^ (8 + (scaledLength m - 9)) ≤ scaled m := by
    rwa [show 8 + (scaledLength m - 9) = scaledLength m - 1 by omega]
  obtain ⟨d, found⟩ := neighbour?_nine positive finite long
  -- nine digits are always enough, so the search does find something
  have last : (List.range' 1 9).findSome? (fun n =>
      neighbour? m (scaled m) (scaledLength m - n)) ≠ none := fun none => by
    rw [List.findSome?_eq_none_iff.mp none 9 (List.mem_range'_1.mpr (by decide))] at found
    cases found
  obtain ⟨d, found⟩ := Option.ne_none_iff_exists'.mp last
  obtain ⟨n, lt, first, before⟩ := findSome?_range'_one found
  have short : shortest m = d := by
    rw [shortest]
    exact (congrArg (Option.getD · _) found).trans (Option.getD_some)
  rw [short]
  exact ⟨n, first, by omega, before⟩

/-- The neighbours on a grid have no more digits than the value has in front of the zeros. -/
lemma Neighbours.hasDigits {n : Nat} (nb : Neighbours m zeros near far)
    (short : scaled m < 10 ^ (n + 1 + zeros)) :
    HasDigits (n + 1) near.toRat ∧ HasDigits (n + 1) far.toRat := by
  have digits : scaled m / 10 ^ zeros < 10 ^ (n + 1) := by
    rwa [Nat.div_lt_iff_lt_mul (by positivity), ← pow_add]
  have low : HasDigits (n + 1) (lower m zeros).toRat := hasDigits_of_le digits.le _
  have high : HasDigits (n + 1) (upper m zeros).toRat := hasDigits_of_le digits _
  cases nb with
  | down => exact ⟨low, high⟩
  | up => exact ⟨high, low⟩

/-- The neighbours have no more digits than the points of their grid. -/
lemma hasDigits_of_neighbour? {n : Nat} (short : scaled m < 10 ^ (n + 1 + zeros))
    (found : neighbour? m (scaled m) zeros = some d) : HasDigits (n + 1) d.toRat := by
  obtain ⟨near, far, nb, eq⟩ := neighbour?_eq m zeros
  obtain ⟨first, second⟩ := nb.hasDigits short
  rw [eq] at found
  split_ifs at found
  · exact Option.some.inj found ▸ first
  · exact Option.some.inj found ▸ second

/-- The shortest decimal rounds to the magnitude. No decimal that does has fewer digits, and none of
as many is closer to the value. -/
theorem shortest_least (positive : 0 < m) (finite : m < infinity) :
    Greatest (shortest m).toRat m ∧ ∃ n, HasDigits n (shortest m).toRat ∧
      ∀ k q, Greatest q m → HasDigits k q →
        n ≤ k ∧ (k = n → |value m - (shortest m).toRat| ≤ |value m - q|) := by
  obtain ⟨n, found, inside, before⟩ := shortest_first positive finite
  obtain ⟨-, low, high⟩ := scaledLength_bounds positive
  have reads := (ofDecimal_rounds _).unique (shortest_rounds finite).1
  refine ⟨ofDecimal_eq_iff.mp reads, n + 1, hasDigits_of_neighbour? ?_ found, ?_⟩
  · rwa [Nat.add_sub_cancel' inside]
  intro k q gr has
  obtain ⟨j, rfl⟩ := Nat.exists_eq_add_one.mpr (has.pos_of_pos (gr.pos positive finite))
  rcases lt_or_ge n j with more | le
  · exact ⟨by omega, fun same => absurd same (by omega)⟩
  have long : 10 ^ (j + (scaledLength m - (j + 1))) ≤ scaled m := by
    rwa [show j + (scaledLength m - (j + 1)) = scaledLength m - 1 by omega]
  obtain ⟨d, found', closer⟩ := neighbour?_closest finite gr (outside_of_hasDigits has long)
  rcases le.lt_or_eq with fewer | rfl
  · -- the first grid on which there is one would have been this one
    rw [before j fewer] at found'
    cases found'
  · obtain rfl := Option.some.inj (found.symm.trans found')
    exact ⟨le_rfl, fun _ => closer⟩

/-! ## Reading at any exponent -/

/-- One more decimal place is a factor of ten at least. -/
lemma ten_mul_le {j : Int} (positive : 0 ≤ q) (right : 0 < j) : 10 * q ≤ q * 10 ^ j := by
  have power : (10 : ℚ) ^ (1 : Int) ≤ 10 ^ j := zpow_le_zpow_right₀ (by norm_num) right
  rw [mul_comm, ← zpow_one (10 : ℚ)]
  exact mul_le_mul_of_nonneg_left power positive

/-- With the point in another place a number that rounds to the magnitude is not closer to the
value. -/
lemma Greatest.abs_sub_le_of_shift {j : Int} (gr : Greatest (q * 10 ^ j) m) (positive : 0 < m)
    (finite : m < infinity) : |value m - q * 10 ^ j| ≤ |value m - q| := by
  have pos := gr.pos positive finite
  obtain ⟨low, high⟩ := gr.near positive finite
  have close : |value m - q * 10 ^ j| ≤ value m / 2 := by
    rw [abs_le]
    constructor <;> linarith
  rcases lt_trichotomy j 0 with left | rfl | right
  · have large := ten_mul_le pos.le (neg_pos.mpr left)
    have moved : q * 10 ^ j * 10 ^ (-j) = q := by
      rw [mul_assoc, ← zpow_add₀ ten, add_neg_cancel, zpow_zero, mul_one]
    rw [moved] at large
    exact close.trans (le_abs.mpr (.inr (by linarith)))
  · rw [zpow_zero, mul_one]
  · have small := ten_mul_le (pos_of_mul_pos_left pos (by positivity)).le right
    exact close.trans (le_abs.mpr (.inl (by linarith)))

/-- Whatever the exponent is, the sign is kept and the digits spelled are those of a number that
rounds to the magnitude. -/
lemma read?_shift {cs : List Char} {e : Int} {x : Binary32} (sign : Sign)
    (sp : Decimal.Spells cs e q) (found : read? (sign.text ++ cs) = some x) :
    x.isNegative = sign.isMinus ∧ ∃ j : Int, Greatest (q * 10 ^ j) x.magnitude := by
  obtain ⟨d, j, read, value, -⟩ := sp.read_shift
  have small := (ofDecimal_rounds d).small
  have magnitude : magnitude? cs = some (ofDecimal d) := by rw [magnitude?, read]
  rw [read?_eq, sign.split_text_append sp.bare, magnitude] at found
  obtain rfl := Option.some.inj found
  refine ⟨isNegative_ofMagnitude _ small, j, ?_⟩
  rw [magnitude_ofMagnitude _ small, ← value, ← ofDecimal_eq_iff]

end Teletype.Binary32
