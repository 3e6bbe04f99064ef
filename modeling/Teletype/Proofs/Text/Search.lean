import Mathlib
import Teletype.Proofs.Text.Equality

/-!
# Searching texts

A search runs over bytes and answers with a character. No text begins in the middle of a character,
so the first bytes that match are those of the first characters that do (`find?_searches`), and a
search for one character, which goes from character to character, ends at the same offset
(`findChar?_searches`). `Searches` says what there is to be found, on characters alone, and
`indexOf_first` is the main statement.
-/

namespace Teletype.Text

/-- What there is to be found of `ds` in `cs`: the first position from which on `cs` starts with
`ds`. -/
inductive Searches (ds cs : List Char) : Option Nat → Prop where
  | found {i} :
    i ≤ cs.length →
    ds <+: cs.drop i →
    (∀ j < i, ¬ ds <+: cs.drop j) →
    Searches ds cs (some i)
  | absent :
    (∀ i, ¬ ds <+: cs.drop i) →
    Searches ds cs none

section
variable {ds cs : List Char} {c : Char} {o o' : Option Nat}

/-- There is only one first position. -/
lemma Searches.unique (s : Searches ds cs o) (s' : Searches ds cs o') : o = o' := by
  cases s with
  | @found i _ front least =>
    cases s' with
    | @found i' _ front' least' =>
      rcases lt_trichotomy i i' with lt | rfl | lt
      · exact absurd front (least' i lt)
      · rfl
      · exact absurd front' (least i' lt)
    | absent none => exact absurd front (none i)
  | absent none =>
    cases s' with
    | @found i' _ front' _ => exact absurd front' (none i')
    | absent => rfl

/-- What stands in front is found there. -/
lemma Searches.here (front : ds <+: cs) : Searches ds cs (some 0) := by
  apply Searches.found (Nat.zero_le _) front
  intro j lt
  cases lt

/-- Nothing but the empty text is found in an empty one. -/
lemma Searches.nowhere (some : ds ≠ []) : Searches ds [] none := by
  apply Searches.absent
  intro i front
  rw [List.drop_nil] at front
  exact some (List.prefix_nil.mp front)

/-- What does not stand in front is found as far behind the first character as in the rest. -/
lemma Searches.next (other : ¬ ds <+: c :: cs) (s : Searches ds cs o) :
    Searches ds (c :: cs) (o.map (· + 1)) := by
  cases s with
  | found le front least =>
    refine Searches.found (Nat.succ_le_succ le) front fun j lt => ?_
    cases j with
    | zero => exact other
    | succ j => exact least j (Nat.lt_of_succ_lt_succ lt)
  | absent none =>
    apply Searches.absent
    intro i
    cases i with
    | zero => exact other
    | succ i => exact none i

end

/-! ## The search over bytes -/

section
variable {needle bs : List UInt8} {b : UInt8}

/-- The search over bytes stops where the needle stands. -/
lemma find?_of_prefix (front : needle <+: bs) : find? needle bs = some 0 := by
  cases bs with
  | nil =>
    obtain rfl := List.prefix_nil.mp front
    rfl
  | cons b bs => rw [find?, if_pos (List.isPrefixOf_iff_prefix.mpr front)]

/-- The search over bytes goes on where the needle does not stand. -/
lemma find?_of_not_prefix (other : ¬ needle <+: b :: bs) :
    find? needle (b :: bs) = (find? needle bs).map (· + 1) := by
  rw [find?, if_neg fun front => other (List.isPrefixOf_iff_prefix.mp front)]

end

/-- The offset of a character position. -/
def offsetOf (cs : List Char) (i : Nat) : Nat :=
  (Utf8.encode (cs.take i)).length

/-- Behind a first character all offsets grow by its bytes. -/
lemma map_offsetOf_next (c : Char) (cs : List Char) (o : Option Nat) :
    (o.map (· + 1)).map (offsetOf (c :: cs)) =
      (o.map (offsetOf cs)).map (· + (String.utf8EncodeChar c).length) := by
  rw [Option.map_map, Option.map_map]
  apply Option.map_congr
  intro i _
  show (Utf8.encode (c :: cs.take i)).length = offsetOf cs i + _
  rw [Utf8.encode_cons, List.length_append, Nat.add_comm, offsetOf]

/-- The bytes inside a character are passed over. -/
lemma find?_continuations {ds : List Char} (some : ds ≠ []) {bs : List UInt8}
    (all : ∀ b ∈ bs, Utf8.isContinuation b = true) (rest : List UInt8) :
    find? (Utf8.encode ds) (bs ++ rest) = (find? (Utf8.encode ds) rest).map (· + bs.length) := by
  induction bs with
  | nil => exact Option.map_id'.symm
  | cons b bs ih =>
    obtain ⟨inner, all⟩ := List.forall_mem_cons.mp all
    have other := Utf8.not_prefix_of_continuation some inner (bs ++ rest)
    rw [List.cons_append, find?_of_not_prefix other, ih all, Option.map_map]
    rfl

/-- Where the needle does not stand, the search over bytes goes on at the next character. -/
lemma find?_next {ds cs : List Char} {c : Char} (other : ¬ ds <+: c :: cs) :
    find? (Utf8.encode ds) (Utf8.encode (c :: cs)) =
      (find? (Utf8.encode ds) (Utf8.encode cs)).map (· + (String.utf8EncodeChar c).length) := by
  have some : ds ≠ [] := by
    rintro rfl
    exact other List.nil_prefix
  rw [← Utf8.encode_prefix_iff, Utf8.encode_cons] at other
  obtain ⟨lead, bs, bytes, -, -, all⟩ := Utf8.encodeChar_shape c
  -- nothing starts at the first byte of `c`, and at the others nothing can
  rw [bytes, List.cons_append] at other
  rw [Utf8.encode_cons, bytes, List.cons_append, find?_of_not_prefix other,
    find?_continuations some all, Option.map_map]
  rfl

/-- Among the bytes of characters the search finds what there is among the characters. -/
lemma find?_searches (ds cs : List Char) :
    ∃ o, Searches ds cs o ∧ find? (Utf8.encode ds) (Utf8.encode cs) = o.map (offsetOf cs) := by
  induction cs with
  | nil =>
    by_cases none : ds = []
    · subst none
      exact ⟨some 0, .here List.nil_prefix, rfl⟩
    · refine ⟨_, .nowhere none, ?_⟩
      show find? (Utf8.encode ds) [] = Option.none
      rw [find?, if_neg]
      exact fun empty => Utf8.encode_ne_nil none (List.isEmpty_iff.mp empty)
  | cons c cs ih =>
    by_cases front : ds <+: c :: cs
    · exact ⟨some 0, .here front, find?_of_prefix (Utf8.encode_prefix_iff.mpr front)⟩
    · obtain ⟨o, s, found⟩ := ih
      refine ⟨_, s.next front, ?_⟩
      rw [find?_next front, found, map_offsetOf_next]

/-- The search for a character finds the offset of its first position. -/
lemma findChar?_searches (c : Char) (cs : List Char) :
    ∃ o, Searches [c] cs o ∧ findChar? c cs = o.map (offsetOf cs) := by
  induction cs with
  | nil => exact ⟨none, .nowhere (List.cons_ne_nil c []), rfl⟩
  | cons d cs ih =>
    by_cases same : d = c
    · subst same
      refine ⟨some 0, .here (List.prefix_append [d] cs), ?_⟩
      rw [findChar?, if_pos rfl]
      rfl
    · obtain ⟨o, s, found⟩ := ih
      have front : ¬ [c] <+: d :: cs := fun front => same (List.cons_prefix_cons.mp front).1.symm
      refine ⟨_, s.next front, ?_⟩
      rw [findChar?, if_neg same, found, map_offsetOf_next, String.length_utf8EncodeChar]

/-! ## From offsets to positions -/

/-- The offset of a character position is turned back into it. -/
lemma charIndex_eq {t : Text} (wf : t.WellFormed) {i : Nat} (le : i ≤ t.toList.length) :
    t.charIndex (offsetOf t.toList i) = .ok i := by
  rw [← wf.counted] at le
  have offset := byteOffset_eq wf le
  rw [charIndex, offsetOf]
  split
  next ascii => rw [← offset, byteOffset, if_pos ascii]
  next =>
    have split : t.toList = [] ++ t.toList.take i ++ t.toList.drop i := by simp
    have front := slice_eq wf split
    rw [List.nil_append] at front
    show (do return Utf8.count (← t.slice (Utf8.encode []).length _)) = (_ : Outcome Nat)
    rw [front]
    show Except.ok (Utf8.count (Utf8.encode (t.toList.take i))) = _
    rw [Utf8.count_encode, List.length_take, ← wf.counted, Nat.min_eq_left le]

/-- Where a search among the characters ends, as a position of the text. -/
lemma position_eq {t : Text} (wf : t.WellFormed) {ds : List Char} {o : Option Nat}
    (s : Searches ds t.toList o) :
    t.position (o.map (offsetOf t.toList)) = .ok (o.elim (-1) toIndex) := by
  cases s with
  | found le =>
    show (do return toIndex (← t.charIndex _)) = (_ : Outcome Int32)
    rw [charIndex_eq wf le]
    rfl
  | absent => rfl

/-- The search for a text finds its first position. -/
lemma indexOf_searches {t p : Text} (wt : t.WellFormed) (wp : p.WellFormed) :
    ∃ o, Searches p.toList t.toList o ∧ t.indexOf p = .ok (o.elim (-1) toIndex) := by
  obtain ⟨o, s, found⟩ := find?_searches p.toList t.toList
  refine ⟨o, s, ?_⟩
  rw [indexOf, wp.utf8, wt.utf8, found, position_eq wt s]

/-- A search for a character is one for the text of it. -/
lemma indexOfChar_eq {t : Text} (wf : t.WellFormed) (c : Char) :
    t.indexOfChar c = t.indexOf (ofChar c) := by
  have single : (ofChar c).WellFormed := wellFormed_ofChars [c]
  have char : (ofChar c).toList = [c] := toList_ofChars [c]
  obtain ⟨o, s, found⟩ := findChar?_searches c t.toList
  obtain ⟨o', s', answer⟩ := indexOf_searches wf single
  -- both searches find what there is to be found of `[c]`
  rw [char] at s'
  rw [indexOfChar, found, position_eq wf s, answer, s.unique s']

/-! ## Positions of 32 bits -/

/-- Where one text is found in another: at the first position from which on the characters start
with those searched for, or nowhere. -/
inductive Locates (t p : Text) : Outcome Int32 → Prop where
  | found {i : Int32} :
    0 ≤ i.toInt →
    i.toInt ≤ t.toList.length →
    p.toList <+: t.toList.drop i.toInt.toNat →
    (∀ j < i.toInt.toNat, ¬ p.toList <+: t.toList.drop j) →
    Locates t p (.ok i)
  | absent :
    (∀ j, ¬ p.toList <+: t.toList.drop j) →
    Locates t p (.ok (-1))

/-- A position below 2³¹ is kept as it is. -/
lemma toInt_toIndex {i : Nat} (small : i < 0x80000000) : (toIndex i).toInt = i := by
  rw [toIndex, if_pos small]
  exact Int32.toInt_ofNat_of_lt small

/-- In a text of fewer than 2³¹ characters the search tells where the other text is. -/
lemma indexOf_locates {t p : Text} (wt : t.WellFormed) (wp : p.WellFormed)
    (small : t.length < 0x80000000) : Locates t p (t.indexOf p) := by
  obtain ⟨o, s, answer⟩ := indexOf_searches wt wp
  rw [answer]
  cases s with
  | absent none => exact .absent none
  | @found i le front least =>
    have value : (toIndex i).toInt = i := toInt_toIndex (by rw [wt.counted] at small; omega)
    have position : (toIndex i).toInt.toNat = i := by rw [value, Int.toNat_natCast]
    rw [Option.elim_some]
    apply Locates.found
    · omega
    · omega
    · rwa [position]
    · rwa [position]

/-- The answer -1 means that the text stands nowhere. -/
lemma Locates.absent_iff {t p : Text} {outcome : Outcome Int32} (locates : Locates t p outcome) :
    outcome = .ok (-1) ↔ ∀ i, ¬ p.toList <+: t.toList.drop i := by
  cases locates with
  | found low _ front =>
    constructor
    · rintro ⟨⟩
      cases low
    · intro none
      exact absurd front (none _)
  | absent none => exact ⟨fun _ => none, fun _ => rfl⟩

/-- The empty text stands at the start of every text. -/
lemma indexOf_of_isEmpty {t p : Text} (wt : t.WellFormed) (wp : p.WellFormed)
    (empty : p.isEmpty = true) : t.indexOf p = .ok 0 := by
  rw [isEmpty, beq_iff_eq, wp.counted] at empty
  obtain ⟨o, s, answer⟩ := indexOf_searches wt wp
  rw [List.length_eq_zero_iff.mp empty] at s
  rw [answer, s.unique (.here List.nil_prefix)]
  rfl

/-- What is found can be cut out where it was found. -/
lemma Locates.substringLen {t p : Text} (wt : t.WellFormed) (wp : p.WellFormed)
    (small : p.length < 0x80000000) {i : Int32} (locates : Locates t p (.ok i))
    (low : 0 ≤ i.toInt) : ∃ u, t.substringLen i (.ofNat p.length) = .ok u ∧ (u == p) = true := by
  have size : (Int32.ofNat p.length).toInt = p.length := Int32.toInt_ofNat_of_lt small
  cases locates with
  | absent => cases low
  | found _ le front least =>
    have len := front.length_le
    rw [List.length_drop, ← wt.counted, ← wp.counted] at len
    have within : i.toInt + (Int32.ofNat p.length).toInt ≤ t.length := by
      rw [← wt.counted] at le
      omega
    refine ⟨_, substringLen_eq wt low (by omega) within, ?_⟩
    apply (wellFormed_ofChars _).beq wp
    rw [toList_ofChars, size, Int.toNat_natCast, wp.counted]
    exact (List.prefix_iff_eq_take.mp front).symm

/-- No part of the text that starts earlier is the text searched for. -/
lemma Locates.not_substringLen {t p u : Text} (wt : t.WellFormed) (wp : p.WellFormed)
    {i j len : Int32} (locates : Locates t p (.ok i)) (lt : j.toInt < i.toInt)
    (part : t.substringLen j len = .ok u) : (u == p) = false := by
  rw [Bool.eq_false_iff]
  intro same
  have cuts := substringLen_cuts wt j len
  rw [part] at cuts
  cases cuts with
  | part low _ _ spells =>
    have chars := (spells.wellFormed.equal_iff wp).mp same
    rw [toString_eq_iff, toList_toString, spells.toList] at chars
    have front : p.toList <+: t.toList.drop j.toInt.toNat := chars ▸ List.take_prefix _ _
    cases locates with
    | absent none => exact none _ front
    | found _ _ _ least => exact least _ (by omega) front

/-- A search finds the first position at which the text stands that is searched for, and -1 stands
for none; an empty text stands at the start. A character is searched for like the text of it. What
is found can be cut out, and nowhere before. -/
theorem indexOf_first {t p : Text} (madeT : t.Made) (madeP : p.Made)
    (smallT : t.length < 0x80000000) (smallP : p.length < 0x80000000) :
    Locates t p (t.indexOf p) ∧
      (t.indexOf p = .ok (-1) ↔ ∀ i, ¬ p.toList <+: t.toList.drop i) ∧
      (p.isEmpty = true → t.indexOf p = .ok 0) ∧
      (∀ c, t.indexOfChar c = t.indexOf (ofChar c)) ∧
      ∀ i, t.indexOf p = .ok i → 0 ≤ i.toInt →
        (∃ u, t.substringLen i (.ofNat p.length) = .ok u ∧ (u == p) = true) ∧
          ∀ j : Int32, j.toInt < i.toInt → ∀ u, t.substringLen j (.ofNat p.length) = .ok u →
            (u == p) = false := by
  have wt := madeT.wellFormed
  have wp := madeP.wellFormed
  have locates := indexOf_locates wt wp smallT
  refine ⟨locates, locates.absent_iff, indexOf_of_isEmpty wt wp, indexOfChar_eq wt, ?_⟩
  intro i found low
  rw [found] at locates
  exact ⟨locates.substringLen wt wp smallP low, fun _ lt _ => locates.not_substringLen wt wp lt⟩

/-- Found where it begins for the second time, behind characters of two bytes. -/
theorem indexOf_first_repeated :
    let t : Text := "éaéaéb"
    let p : Text := "éaéb"
    t.Made ∧ p.Made ∧ t.indexOf p = .ok 2 ∧
      ∃ u, t.substringLen 2 (.ofNat p.length) = .ok u ∧ (u == p) = true := by
  intro t p
  have madeT : t.Made := made_ofString _
  have madeP : p.Made := made_ofString _
  have found : t.indexOf p = .ok 2 := rfl
  obtain ⟨-, -, -, -, cut⟩ := indexOf_first madeT madeP (by decide) (by decide)
  exact ⟨madeT, madeP, found, (cut 2 found (by decide)).1⟩

end Teletype.Text
