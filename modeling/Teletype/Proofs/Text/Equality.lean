import Mathlib
import Teletype.Proofs.Quoted.Reading
import Teletype.Proofs.Text.Making
import Teletype.Text.Join
import Teletype.Text.Search

/-!
# Equal texts

Texts compare by their counts and bytes, and both say no more than the characters of a text do. So
texts that were made, be it in different ways, compare as equal exactly when they are the same
string, and then no operation tells them apart. `equality_structural` is the main statement.
-/

namespace Teletype.Text

/-- A comparison that need not look at the bytes of two shared runs where `one` knows them to be one
and the same. -/
def equalUpTo (one : List UInt8 → List UInt8 → Bool) (a b : Text) : Bool :=
  a.length == b.length &&
    match a.storage, b.storage with
    | .shared bs, .shared cs => one bs cs || bs == cs
    | _, _ => a.bytes == b.bytes

/-- A sound shortcut does not change the comparison. -/
lemma equalUpTo_eq {one : List UInt8 → List UInt8 → Bool}
    (sound : ∀ bs cs, one bs cs = true → bs = cs) (a b : Text) :
    a.equalUpTo one b = a.equal b := by
  obtain ⟨storage, length⟩ := a
  obtain ⟨storage', length'⟩ := b
  cases storage with
  | inline size buffer => rfl
  | shared bs =>
    cases storage' with
    | inline size buffer => rfl
    | shared cs =>
      have known : (one bs cs || bs == cs) = (bs == cs) := by
        cases h : one bs cs with
        | false => rfl
        | true => simp [sound bs cs h]
      show (_ && (one bs cs || bs == cs)) = (_ && (bs == cs))
      rw [known]

/-- A text is seen as a string just when it has the string's characters. -/
lemma toString_eq_iff {t : Text} {s : String} : toString t = s ↔ t.toList = s.toList := by
  show String.ofList t.toList = s ↔ _
  rw [← String.toList_inj, String.toList_ofList]

/-- The string of a text has the characters of the text. -/
lemma toList_toString (t : Text) : (toString t).toList = t.toList :=
  String.toList_ofList

/-- Well-formed texts are equal just when their strings are. -/
lemma WellFormed.equal_iff {a b : Text} (wa : a.WellFormed) (wb : b.WellFormed) :
    a.equal b = true ↔ toString a = toString b := by
  rw [toString_eq_iff, toList_toString]
  constructor
  · intro same
    rw [equal, Bool.and_eq_true, beq_iff_eq, beq_iff_eq] at same
    rw [toList, same.2, toList]
  · exact wa.beq wb

/-- A well-formed text equals a string just when it is seen as that string. -/
lemma WellFormed.equalsString_iff {t : Text} (wf : t.WellFormed) (s : String) :
    t.equalsString s = true ↔ toString t = s := by
  rw [toString_eq_iff, equalsString, beq_iff_eq]
  constructor
  · intro same
    rw [toList, same, Utf8.decode?_encode]
    rfl
  · intro same
    rw [wf.utf8, same]

/-- A quoted text reads back as the characters of the text. -/
lemma read?_quoted (t : Text) : Quoted.read? t.quoted.toList = some t.toList := by
  rw [quoted, String.toList_ofList, Quoted.read?_write]

/-- Texts are equal just when they look the same between quotes. -/
lemma WellFormed.quoted_eq_iff {a b : Text} (wa : a.WellFormed) (wb : b.WellFormed) :
    a.quoted = b.quoted ↔ a.equal b = true := by
  rw [wa.equal_iff wb, toString_eq_iff, toList_toString, ← String.toList_inj, quoted, quoted,
    String.toList_ofList, String.toList_ofList]
  exact Quoted.write_injective.eq_iff

/-- No operation tells the texts apart, neither by a value nor by an error. -/
structure Alike (a b : Text) : Prop where
  length : a.length = b.length
  quoted : a.quoted = b.quoted
  isAscii : a.isAscii = b.isAscii
  charAt : ∀ index, a.charAt index = b.charAt index
  substring : ∀ start, a.substring start = b.substring start
  substringLen : ∀ start len, a.substringLen start len = b.substringLen start len
  indexOf : ∀ t, a.indexOf t = b.indexOf t ∧ t.indexOf a = t.indexOf b
  indexOfChar : ∀ c, a.indexOfChar c = b.indexOfChar c
  append : ∀ t, a.append t = b.append t ∧ t.append a = t.append b

/-- Texts that were made compare as equal in every way exactly when they are the same string, and
they compare with strings and hash as that string. Equal ones hash alike and are alike. -/
theorem equality_structural {a b : Text} (madeA : a.Made) (madeB : b.Made) :
    ((a == b) = true ↔ toString a = toString b) ∧
      (a.equal b = true ↔ toString a = toString b) ∧
      ((a != b) = false ↔ toString a = toString b) ∧
      (∀ one : List UInt8 → List UInt8 → Bool, (∀ bs cs, one bs cs = true → bs = cs) →
        (a.equalUpTo one b = true ↔ toString a = toString b)) ∧
      (∀ s, a.equalsString s = true ↔ toString a = s) ∧
      a.hashInput = hashInputOf (Utf8.encode (toString a).toList) ∧
      ((a == b) = true → a.hashInput = b.hashInput ∧ hash a = hash b ∧ Alike a b) := by
  have compared := madeA.wellFormed.equal_iff madeB.wellFormed
  refine ⟨compared, compared, ?_, ?_, madeA.wellFormed.equalsString_iff, ?_, ?_⟩
  · show (!a.equal b) = false ↔ _
    rw [Bool.not_eq_false', compared]
  · intro one sound
    rw [equalUpTo_eq sound, compared]
  · rw [toList_toString, hashInput, madeA.wellFormed.utf8]
  · intro equal
    have same := compared.mp equal
    rw [toString_eq_iff, toList_toString] at same
    -- with the characters all else is the same
    obtain rfl : a = b := by rw [madeA.eq_ofChars, madeB.eq_ofChars, same]
    exact ⟨rfl, rfl, rfl, rfl, rfl, fun _ => rfl, fun _ => rfl, fun _ _ => rfl,
      fun _ => ⟨rfl, rfl⟩, fun _ => rfl, fun _ => ⟨rfl, rfl⟩⟩

/-- A text of more bytes than the buffer holds, made at once and made of two that fit. -/
theorem equality_structural_joined :
    let a : Text := "où sont passées les clés"
    let b : Text := append "où sont " "passées les clés"
    a.Made ∧ b.Made ∧ (a == b) = true ∧ a.equalUpTo (· == ·) b = true ∧ hash a = hash b ∧
      Alike a b := by
  intro a b
  have madeA : a.Made := made_ofString _
  have madeB : b.Made := made_append_ofString _ _
  have joined : b = a := append_ofString "où sont " "passées les clés"
  have same : toString a = toString b := congrArg toString joined.symm
  obtain ⟨compared, -, -, spared, -, -, alike⟩ := equality_structural madeA madeB
  have known := spared (· == ·) fun bs cs one => beq_iff_eq.mp one
  obtain ⟨-, hashes, alike⟩ := alike (compared.mpr same)
  exact ⟨madeA, madeB, compared.mpr same, known.mpr same, hashes, alike⟩

end Teletype.Text
