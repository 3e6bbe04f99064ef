import Mathlib
import Teletype.Proofs.Text.Indexing

/-!
# Joining texts

A list of strings can be joined before a text is made of it, by `join`, or as texts put together in
pairs, in any order and by any of the ways to write that; `Joins` has a rule for each. All of them
give the text of the same characters (`Joins.eq_ofChars`), on trees of pairs by induction. Whether
the pairs on the way fit the buffer makes no difference.
-/

namespace Teletype.Text

/-- Texts put together in pairs. -/
inductive Concat
  | text (t : Text)
  | append (a b : Concat)
  | sequence (a b : Concat)
  | plus (a b : Concat)

namespace Concat

/-- The texts at the leaves, from left to right. -/
def texts : Concat → List Text
  | text t => [t]
  | append a b | sequence a b | plus a b => a.texts ++ b.texts

/-- The text that a tree of texts is put together to. -/
def eval : Concat → Text
  | text t => t
  | append a b => a.eval.append b.eval
  | sequence a b => a.eval ++ b.eval
  | plus a b => a.eval + b.eval

/-- All the parentheses are forgotten: only the characters count. -/
lemma eval_eq_ofChars {c : Concat} (made : ∀ t ∈ c.texts, t.Made) :
    c.eval = ofChars (c.texts.flatMap Text.toList) := by
  induction c with
  | text t =>
    have leaf := made t (List.mem_singleton.mpr rfl)
    rw [texts, List.flatMap_singleton]
    exact leaf.eq_ofChars
  | append a b iha ihb | sequence a b iha ihb | plus a b iha ihb =>
    obtain ⟨madeA, madeB⟩ := List.forall_mem_append.mp made
    have left := iha madeA
    have right := ihb madeB
    show a.eval.append b.eval = ofChars ((a.texts ++ b.texts).flatMap Text.toList)
    rw [left, right, append_eq (wellFormed_ofChars _) (wellFormed_ofChars _), toList_ofChars,
      toList_ofChars, List.flatMap_append]

end Concat

/-- A text that strings were joined to, in some way. -/
inductive Joins (parts : List String) : Text → Prop where
  | whole :
    Joins parts (ofString (String.join parts))
  | many :
    Joins parts (join parts)
  | pairs {c : Concat} :
    (∀ t ∈ c.texts, t.Made) →
    c.texts.map toString = parts →
    Joins parts c.eval

/-- Texts have the characters of their strings. -/
lemma flatMap_toString (texts : List Text) :
    (texts.map toString).flatMap String.toList = texts.flatMap Text.toList := by
  rw [List.flatMap_map]
  exact congrArg (List.flatMap · texts) (funext toList_toString)

/-- Joined text is the text of all the characters, in order. -/
lemma Joins.eq_ofChars {parts : List String} {t : Text} (joins : Joins parts t) :
    t = ofChars (parts.flatMap String.toList) := by
  cases joins with
  | whole => rw [ofString_eq, String.toList_join]
  | many => exact join_eq parts
  | pairs made spelled => rw [Concat.eval_eq_ofChars made, ← spelled, flatMap_toString]

/-- The same text, down to the place of its bytes. -/
structure Same (a b : Text) : Prop where
  equal : (a == b) = true
  toString : toString a = toString b
  length : a.length = b.length
  storage : a.storage = b.storage
  hashInput : a.hashInput = b.hashInput
  hash : hash a = hash b

/-- A text is the same as itself. -/
lemma Same.refl (t : Text) : Same t t := by
  refine ⟨?_, rfl, rfl, rfl, rfl, rfl⟩
  show t.equal t = true
  rw [Text.equal, BEq.rfl, BEq.rfl, Bool.and_self]

/-- Two ways to join the same strings give the same text. -/
lemma Joins.same {parts : List String} {t u : Text} (ht : Joins parts t) (hu : Joins parts u) :
    Same t u := by
  obtain rfl : t = u := ht.eq_ofChars.trans hu.eq_ofChars.symm
  exact .refl t

/-- The characters of strings joined are counted string by string. -/
lemma length_flatMap_toList (parts : List String) :
    (parts.flatMap String.toList).length = (parts.map String.length).sum := by
  rw [← String.toList_join, String.length_toList, String.length_join]

/-- The empty text in front of another one changes nothing. -/
lemma empty_append {t : Text} (made : t.Made) : append empty t = t := by
  rw [empty_eq, append_eq (wellFormed_ofChars []) made.wellFormed, toList_ofChars, List.nil_append]
  exact made.eq_ofChars.symm

/-- The empty text behind another one changes nothing. -/
lemma append_empty {t : Text} (made : t.Made) : append t empty = t := by
  rw [empty_eq, append_eq made.wellFormed (wellFormed_ofChars []), toList_ofChars, List.append_nil]
  exact made.eq_ofChars.symm

/-- The character at a position of two texts put together is that of their characters. -/
lemma charAt_append {a b : Text} (madeA : a.Made) (madeB : b.Made) {index : Int32} {c : Char}
    (low : 0 ≤ index.toInt) (found : (a.toList ++ b.toList)[index.toInt.toNat]? = some c) :
    (append a b).charAt index = .ok c := by
  rw [append_eq madeA.wellFormed madeB.wellFormed]
  apply charAt_eq (wellFormed_ofChars _) low
  rwa [toList_ofChars]

/-- However strings are joined, the text is the same and has as many characters as all of them. The
empty text changes nothing on either side, and behind the characters of one text stand those of the
other. -/
theorem concatenation_monoid :
    (∀ (parts : List String) (t u : Text), Joins parts t → Joins parts u →
      Same t u ∧ t.length = (parts.map String.length).sum) ∧
      (∀ t : Text, t.Made → Same (empty + t) t ∧ Same (t + empty) t) ∧
      ∀ a b : Text, a.Made → b.Made → ∀ (index : Int32) (c : Char), 0 ≤ index.toInt →
        (a.toList ++ b.toList)[index.toInt.toNat]? = some c → (a + b).charAt index = .ok c := by
  refine ⟨?_, ?_, ?_⟩
  · intro parts t u ht hu
    refine ⟨ht.same hu, ?_⟩
    rw [ht.eq_ofChars, ← length_flatMap_toList]
    rfl
  · intro t made
    have left : empty + t = t := empty_append made
    have right : t + empty = t := append_empty made
    rw [left, right]
    exact ⟨.refl t, .refl t⟩
  · intro a b madeA madeB index c low found
    exact charAt_append madeA madeB low found

/-- Pairs that fit the buffer and pairs that do not, on the way to a text of 26 bytes. -/
theorem concatenation_monoid_pairs :
    let parts := ["où sont ", "", "passées les clés"]
    let left := Concat.plus (.plus (.text "où sont ") (.text "")) (.text "passées les clés")
    let right := Concat.append (.text "où sont ") (.append (.text "") (.text "passées les clés"))
    Joins parts left.eval ∧ Joins parts right.eval ∧ Same left.eval right.eval ∧
      Same left.eval (join parts) ∧ left.eval.storage.isInline = false := by
  intro parts left right
  have made : ∀ t ∈ parts.map ofString, t.Made := by
    intro t mem
    obtain ⟨s, -, rfl⟩ := List.mem_map.mp mem
    exact made_ofString s
  have spelled : (parts.map ofString).map toString = parts := by
    rw [List.map_map]
    refine List.map_id'' (fun s => ?_) parts
    rw [Function.comp_apply, toString_eq_iff, ofString_eq, toList_ofChars]
  have joinsL : Joins parts left.eval := .pairs made spelled
  have joinsR : Joins parts right.eval := .pairs made spelled
  obtain ⟨joined, -, -⟩ := concatenation_monoid
  exact ⟨joinsL, joinsR, (joined parts _ _ joinsL joinsR).1, (joined parts _ _ joinsL .many).1, rfl⟩

end Teletype.Text
