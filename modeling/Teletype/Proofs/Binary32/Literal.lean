import Mathlib
import Teletype.Proofs.Binary32.Rounding

/-!
# Floating-point literals

`Literal` is the grammar of the texts that denote a number: a sign, if any, and then a decimal or
one of the words for infinity and NaN. Numbers are read from just these (`exists_read?_iff`). A
decimal rounds to the magnitude that is read, and the sign is kept (`read?_spells`).
-/

namespace Teletype.Binary32

/-! ## Signs and magnitudes -/

/-- The bits are the magnitude under the sign bit. -/
lemma toNat_ofMagnitude {negative : Bool} {m : Nat} (small : m < 0x80000000) :
    (ofMagnitude negative m).bits.toNat = if negative then 0x80000000 + m else m := by
  rw [ofMagnitude, UInt32.toNat_ofNat']
  cases negative <;> simp <;> omega

/-- The sign given is the sign of the number. -/
lemma isNegative_ofMagnitude (negative : Bool) {m : Nat} (small : m < 0x80000000) :
    (ofMagnitude negative m).isNegative = negative := by
  rw [isNegative, toNat_ofMagnitude small]
  cases negative <;> simp
  omega

/-- The magnitude given is the magnitude of the number. -/
lemma magnitude_ofMagnitude (negative : Bool) {m : Nat} (small : m < 0x80000000) :
    (ofMagnitude negative m).magnitude = m := by
  rw [magnitude, toNat_ofMagnitude small]
  cases negative <;> simp <;> omega

/-- A number is its sign and its magnitude. -/
lemma ofMagnitude_magnitude (x : Binary32) : ofMagnitude x.isNegative x.magnitude = x := by
  obtain ⟨bits⟩ := x
  have bound := bits.toNat_lt
  rw [ofMagnitude, Binary32.mk.injEq, ← UInt32.toNat_inj, UInt32.toNat_ofNat']
  unfold isNegative magnitude
  by_cases negative : 0x80000000 ≤ bits.toNat <;> simp [negative] <;> omega

/-- What a number rounds to leaves room for the sign bit. -/
lemma Rounds.small {q m} (rm : Rounds q m) : m < 0x80000000 :=
  lt_of_le_of_lt rm.bound (by decide)

/-! ## Grammar -/

/-- The words for infinity and NaN. -/
def words : List (List Char) :=
  [['i', 'n', 'f'], ['i', 'n', 'f', 'i', 'n', 'i', 't', 'y'], ['n', 'a', 'n']]

/-- The text is one of the words, in any ASCII letter case. -/
def IsWord (cs : List Char) : Prop :=
  cs.map Char.toLower ∈ words

/-- The texts that denote a floating-point number: a decimal or a word, behind a sign or none. -/
inductive Literal : List Char → Prop where
  | decimal {cs e q} (sign : Sign) :
    Decimal.Spells cs e q →
    Literal (sign.text ++ cs)
  | word {cs} (sign : Sign) :
    IsWord cs →
    Literal (sign.text ++ cs)

/-- The words are what is read as one. -/
lemma exists_ofWord?_iff {cs : List Char} : (∃ m, ofWord? cs = some m) ↔ IsWord cs := by
  simp only [IsWord, words, List.mem_cons, List.not_mem_nil, or_false, ← or_assoc, ofWord?]
  split_ifs <;> simp_all

/-- No word starts with a sign. -/
lemma IsWord.bare {cs : List Char} (word : IsWord cs) : Sign.Bare cs := by
  intro c mem
  have first : (cs.map Char.toLower).head? = some c.toLower := by rw [List.head?_map, mem]; rfl
  simp only [IsWord, words, List.mem_cons, List.not_mem_nil, or_false] at word
  constructor <;> rintro rfl <;> rcases word with word | word | word <;> rw [word] at first <;>
    exact absurd first (by decide)

/-- Without a sign, the decimals and the words denote a magnitude, and nothing else does. -/
lemma exists_magnitude?_iff {cs : List Char} :
    (∃ m, magnitude? cs = some m) ↔ (∃ e q, Decimal.Spells cs e q) ∨ IsWord cs := by
  rw [← Decimal.exists_read?_iff, ← exists_ofWord?_iff, magnitude?]
  cases Decimal.read? cs <;> simp

/-- A text denotes the magnitude behind its sign, with that sign. -/
lemma read?_eq (cs : List Char) : read? cs =
    (magnitude? (Sign.split cs).2).map (ofMagnitude (Sign.split cs).1.isMinus) := by
  unfold read?
  split
  next => rfl
  next => rfl
  next minus plus => rw [Sign.split_of_ne minus plus]; rfl

/-- Numbers are read from just the texts of the grammar. -/
lemma exists_read?_iff {cs : List Char} : (∃ x, read? cs = some x) ↔ Literal cs := by
  rw [read?_eq]
  constructor
  · rintro ⟨x, found⟩
    obtain ⟨m, magnitude, _⟩ := Option.map_eq_some_iff.mp found
    rw [← Sign.text_append_split cs]
    rcases exists_magnitude?_iff.mp ⟨m, magnitude⟩ with ⟨e, q, sp⟩ | word
    · exact .decimal _ sp
    · exact .word _ word
  · have found : ∀ (sign : Sign) {ds : List Char}, Sign.Bare ds → (∃ m, magnitude? ds = some m) →
        ∃ x, (magnitude? (Sign.split (sign.text ++ ds)).2).map
          (ofMagnitude (Sign.split (sign.text ++ ds)).1.isMinus) = some x := by
      rintro sign ds bare ⟨m, magnitude⟩
      rw [sign.split_text_append bare, magnitude]
      exact ⟨_, rfl⟩
    intro literal
    cases literal with
    | decimal sign sp => exact found sign sp.bare (exists_magnitude?_iff.mpr (.inl ⟨_, _, sp⟩))
    | word sign word => exact found sign word.bare (exists_magnitude?_iff.mpr (.inr word))

/-! ## Decimals -/

variable {cs : List Char} {e : Int} {q : ℚ} {m : Nat}

/-- The magnitude that is read is the one that the number spelled rounds to. -/
lemma magnitude?_spells (sp : Decimal.Spells cs e q) (small : e.natAbs < 0x10000) :
    ∃ m, magnitude? cs = some m ∧ Rounds q m := by
  obtain ⟨d, found, rfl⟩ := sp.read small
  exact ⟨ofDecimal d, by rw [magnitude?, found], ofDecimal_rounds d⟩

/-- A decimal is read as the magnitude it rounds to. -/
lemma magnitude?_of_rounds (sp : Decimal.Spells cs e q) (small : e.natAbs < 0x10000)
    (rm : Rounds q m) : magnitude? cs = some m := by
  obtain ⟨m', found, rm'⟩ := magnitude?_spells sp small
  rw [found, rm'.unique rm]

/-- A signed decimal is read as the number it rounds to, with that sign. -/
lemma read?_spells (sign : Sign) (sp : Decimal.Spells cs e q) (small : e.natAbs < 0x10000) :
    ∃ x, read? (sign.text ++ cs) = some x ∧ x.isNegative = sign.isMinus ∧
      Rounds q x.magnitude := by
  obtain ⟨m, found, rm⟩ := magnitude?_spells sp small
  refine ⟨ofMagnitude sign.isMinus m, ?_, isNegative_ofMagnitude _ rm.small, ?_⟩
  · rw [read?_eq, sign.split_text_append sp.bare, found]
    rfl
  · rwa [magnitude_ofMagnitude _ rm.small]

end Teletype.Binary32
