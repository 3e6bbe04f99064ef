import Mathlib
import Teletype.Proofs.Text.Equality

/-!
# Characters of texts

`charAt` has two ways to a character: the byte of that number when the text is ASCII, and the
decoded characters otherwise. On ASCII text they lead to the same (`byteAt?_eq`), because a count
equal to the number of bytes leaves each character one byte. `Indexes` has a rule for each end of
`charAt`, and `charAt_exact` says that it follows them.
-/

namespace Teletype.Text

/-- What stands at a position: a character, or the report that the position is outside. -/
inductive Indexes (t : Text) (index : Int32) : Outcome Char → Prop where
  | inside {c} :
    0 ≤ index.toInt →
    t.toList[index.toInt.toNat]? = some c →
    Indexes t index (.ok c)
  | outside :
    index.toInt < 0 ∨ (t.toList.length : Int) ≤ index.toInt →
    Indexes t index (.error (.error (.outOfRange index.toInt t.toList.length)))

/-- A character of one byte is the character of that byte. -/
lemma ofNat_toNat_of_single {c : Char} (single : c.toNat < 0x80) :
    Char.ofNat (UInt8.ofNat c.toNat).toNat = c := by
  have byte : (UInt8.ofNat c.toNat).toNat = c.toNat := by
    rw [UInt8.toNat_ofNat']
    omega
  rw [byte, Char.ofNat_toNat]

/-- The byte of a number in ASCII text is the character of that number. -/
lemma byteAt?_eq {t : Text} (wf : t.WellFormed) (ascii : t.isAscii = true) (i : Nat) :
    t.byteAt? i = t.toList[i]? := by
  have single := wf.ascii.mp ascii
  rw [byteAt?, wf.utf8, Utf8.encode_of_single single, List.getElem?_map, Option.map_map]
  cases found : t.toList[i]? with
  | none => rfl
  | some c =>
    have restored := ofNat_toNat_of_single (single c (List.mem_of_getElem? found))
    exact congrArg some restored

/-- The count never promises more characters than there are. -/
lemma WellFormed.getElem? {t : Text} (wf : t.WellFormed) {i : Nat} (lt : i < t.length) :
    ∃ c, t.toList[i]? = some c := by
  rw [wf.counted] at lt
  exact ⟨t.toList[i], List.getElem?_eq_getElem lt⟩

/-- The character at a position of a well-formed text is found there. -/
lemma charAt_eq {t : Text} (wf : t.WellFormed) {index : Int32} {c : Char}
    (low : 0 ≤ index.toInt) (found : t.toList[index.toInt.toNat]? = some c) :
    t.charAt index = .ok c := by
  have lt := (List.getElem?_eq_some_iff.mp found).1
  rw [← wf.counted] at lt
  rw [charAt, if_neg (by omega)]
  split
  next ascii => rw [byteAt?_eq wf ascii, found]
  next => rw [found]

/-- Every look at a position of a well-formed text is one of the cases. -/
lemma charAt_indexes {t : Text} (wf : t.WellFormed) (index : Int32) :
    Indexes t index (t.charAt index) := by
  by_cases inside : 0 ≤ index.toInt ∧ index.toInt < t.length
  · obtain ⟨c, found⟩ := wf.getElem? (i := index.toInt.toNat) (by omega)
    rw [charAt_eq wf inside.1 found]
    exact .inside inside.1 found
  · have outside : index.toInt < 0 ∨ (t.length : Int) ≤ index.toInt := by omega
    rw [charAt, if_pos outside, wf.counted]
    exact .outside (wf.counted ▸ outside)

/-- A position has the character of its number, and only a position outside the text is refused. On
ASCII text the bytes have the same characters at the same positions, and a position that the count
allows has a character. -/
theorem charAt_exact {t : Text} (made : t.Made) :
    (∀ index, Indexes t index (t.charAt index)) ∧
      (t.isAscii = true → ∀ i, t.byteAt? i = t.toList[i]?) ∧
      ∀ i < t.length, ∃ c, t.toList[i]? = some c :=
  ⟨charAt_indexes made.wellFormed, byteAt?_eq made.wellFormed, fun _ => made.wellFormed.getElem?⟩

/-- An ASCII text and a text in which a character has two bytes, put together. -/
theorem charAt_exact_joined :
    let t : Text := append "na" "ïve"
    t.Made ∧ t.isAscii = false ∧ Indexes t 3 (.ok 'v') ∧
      Indexes t 5 (.error (.error (.outOfRange 5 5))) := by
  intro t
  have made : t.Made := made_append_ofString _ _
  obtain ⟨indexes, -, -⟩ := charAt_exact made
  have inside : t.charAt 3 = .ok 'v' := by
    have joined : t = ofString "naïve" := append_ofString "na" "ïve"
    apply charAt_eq made.wellFormed (by decide)
    rw [joined, ofString_eq, toList_ofChars]
    rfl
  exact ⟨made, rfl, inside ▸ indexes 3, indexes 5⟩

end Teletype.Text
