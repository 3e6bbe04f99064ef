import Mathlib
import Teletype.Proofs.Text.WellFormed

/-!
# Cutting texts

A substring of well-formed text is a slice of its characters, with their number beside them.
`CutsRest` and `Cuts` have a rule for each way in which a substring can end, with the position that
an error names; no two rules apply to the same positions. `substring_cuts` and `substringLen_cuts`
say that substrings follow them, and `substrings_exact` that the pieces before, between and behind
two positions are the text again.
-/

namespace Teletype.Text

/-- A well-formed text of the characters `cs`, with `n` beside them as their number. -/
structure Spells (t : Text) (cs : List Char) (n : Nat) : Prop where
  wellFormed : t.WellFormed
  toList : t.toList = cs
  length : t.length = n

/-- The text made of characters spells them. -/
lemma spells_ofChars {cs : List Char} {n : Nat} (count : cs.length = n) :
    (ofChars cs).Spells cs n :=
  ⟨wellFormed_ofChars cs, toList_ofChars cs, count⟩

/-- What becomes of the substring from `start` to the end. -/
inductive CutsRest (t : Text) (start : Int32) : Outcome Text → Prop where
  | rest {u : Text} :
    0 ≤ start.toInt →
    start.toInt ≤ t.toList.length →
    u.Spells (t.toList.drop start.toInt.toNat) (t.toList.length - start.toInt.toNat) →
    CutsRest t start (.ok u)
  | outside :
    start.toInt < 0 ∨ (t.toList.length : Int) < start.toInt →
    CutsRest t start (.error (.error (.outOfRange start.toInt t.toList.length)))

/-- What becomes of the substring of `len` characters from `start` on. A start before the text is
found first and an end behind it last; the end is not bound to 32 bits. -/
inductive Cuts (t : Text) (start len : Int32) : Outcome Text → Prop where
  | part {u : Text} :
    0 ≤ start.toInt →
    0 ≤ len.toInt →
    start.toInt + len.toInt ≤ t.toList.length →
    u.Spells ((t.toList.drop start.toInt.toNat).take len.toInt.toNat) len.toInt.toNat →
    Cuts t start len (.ok u)
  | before :
    start.toInt < 0 →
    Cuts t start len (.error (.error (.outOfRange start.toInt t.toList.length)))
  | negative :
    0 ≤ start.toInt →
    len.toInt < 0 →
    Cuts t start len (.error (.error (.negativeLength len)))
  | behind :
    0 ≤ start.toInt →
    0 ≤ len.toInt →
    (t.toList.length : Int) < start.toInt + len.toInt →
    Cuts t start len (.error (.error (.outOfRange (start.toInt + len.toInt) t.toList.length)))

/-- The substring to the end is one of its cases. -/
lemma substring_cuts {t : Text} (wf : t.WellFormed) (start : Int32) :
    CutsRest t start (t.substring start) := by
  have counted := wf.counted
  by_cases inside : 0 ≤ start.toInt ∧ start.toInt ≤ t.length
  · rw [substring_eq wf inside.1 inside.2]
    exact .rest inside.1 (by omega) (spells_ofChars List.length_drop)
  · rw [substring, if_pos (by omega), counted]
    exact .outside (by omega)

/-- The substring of a length is one of its cases. -/
lemma substringLen_cuts {t : Text} (wf : t.WellFormed) (start len : Int32) :
    Cuts t start len (t.substringLen start len) := by
  have counted := wf.counted
  by_cases low : start.toInt < 0
  · rw [substringLen, if_pos low, counted]
    exact .before low
  by_cases negative : len.toInt < 0
  · rw [substringLen, if_neg low, if_pos negative]
    exact .negative (by omega) negative
  by_cases high : (t.length : Int) < start.toInt + len.toInt
  · rw [substringLen, if_neg low, if_neg negative, if_pos high, counted]
    exact .behind (by omega) (by omega) (by omega)
  · rw [substringLen_eq wf (by omega) (by omega) (by omega)]
    refine .part (by omega) (by omega) (by omega) (spells_ofChars ?_)
    rw [List.length_take, List.length_drop]
    omega

/-- The pieces before, between and behind two positions make up the text. -/
lemma reassemble {t : Text} (wf : t.WellFormed) {start len stop : Int32} (low : 0 ≤ start.toInt)
    (some : 0 ≤ len.toInt) (sum : stop.toInt = start.toInt + len.toInt)
    (high : stop.toInt ≤ t.toList.length) :
    ∃ head middle rest, t.substringLen 0 start = .ok head ∧ t.substringLen start len = .ok middle ∧
      t.substring stop = .ok rest ∧ (head + middle + rest == t) = true := by
  have zero : (0 : Int32).toInt = 0 := rfl
  rw [← wf.counted] at high
  have behind : 0 ≤ stop.toInt := by omega
  have head := substringLen_eq wf zero.ge low (by omega)
  have middle := substringLen_eq wf low some (by omega)
  have rest := substring_eq wf behind high
  refine ⟨_, _, _, head, middle, rest, ?_⟩
  have joined : (t.toList.drop (0 : Int32).toInt.toNat).take start.toInt.toNat ++
      (t.toList.drop start.toInt.toNat).take len.toInt.toNat ++ t.toList.drop stop.toInt.toNat =
      t.toList := by
    have stop_eq : stop.toInt.toNat = start.toInt.toNat + len.toInt.toNat := by omega
    rw [zero, Int.toNat_zero, List.drop_zero, stop_eq, ← List.take_add, List.take_append_drop]
  show (append (append _ _) _ == t) = true
  rw [append_eq (wellFormed_ofChars _) (wellFormed_ofChars _), toList_ofChars, toList_ofChars,
    append_eq (wellFormed_ofChars _) (wellFormed_ofChars _), toList_ofChars, toList_ofChars, joined]
  exact (wellFormed_ofChars _).beq wf (toList_ofChars _)

/-- Substrings are slices of the characters, with the number of the characters in them; where there
is no such slice the error names the first position that is wrong. What lies before, between and
behind two positions makes up the text. -/
theorem substrings_exact {t : Text} (wf : t.WellFormed) :
    (∀ start, CutsRest t start (t.substring start)) ∧
      (∀ start len, Cuts t start len (t.substringLen start len)) ∧
      ∀ start len stop : Int32, 0 ≤ start.toInt → 0 ≤ len.toInt →
        stop.toInt = start.toInt + len.toInt → stop.toInt ≤ t.toList.length →
          ∃ head middle rest, t.substringLen 0 start = .ok head ∧
            t.substringLen start len = .ok middle ∧ t.substring stop = .ok rest ∧
            (head + middle + rest == t) = true :=
  ⟨substring_cuts wf, substringLen_cuts wf, fun _ _ _ => reassemble wf⟩

/-- Cut around a character of two bytes, and with an end that 32 bits do not hold. -/
theorem substrings_exact_cut :
    let t : Text := "naïve"
    t.WellFormed ∧ Cuts t 4 2147483647 (.error (.error (.outOfRange 2147483651 5))) ∧
      ∃ head middle rest, t.substringLen 0 2 = .ok head ∧ t.substringLen 2 2 = .ok middle ∧
        t.substring 4 = .ok rest ∧ (head + middle + rest == t) = true := by
  intro t
  have made : t = ofChars "naïve".toList := ofString_eq "naïve"
  have wf : t.WellFormed := made ▸ wellFormed_ofChars _
  have inside : (4 : Int32).toInt ≤ t.toList.length := by
    rw [made, toList_ofChars]
    decide
  have outcome : t.substringLen 4 2147483647 = .error (.error (.outOfRange 2147483651 5)) := by
    have count : t.length = 5 := rfl
    have four : (4 : Int32).toInt = 4 := rfl
    have greatest : (2147483647 : Int32).toInt = 2147483647 := rfl
    rw [substringLen, count, four, greatest]
    rfl
  obtain ⟨-, cuts, pieces⟩ := substrings_exact wf
  exact ⟨wf, outcome ▸ cuts 4 2147483647, pieces 2 2 4 (by decide) (by decide) rfl inside⟩

end Teletype.Text
