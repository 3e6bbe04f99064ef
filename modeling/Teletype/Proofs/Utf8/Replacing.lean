import Mathlib
import Teletype.Failure
import Teletype.Proofs.Utf8.Prefix

/-!
# Replacing what is no text

`Replaced` says what malformed bytes are decoded to, in terms of the bytes of characters alone. A
character in front is kept. Where none stands in front, U+FFFD takes the place of a maximal subpart:
of the longest beginning of a character, or of a single byte if none begins there. This decides the
text (`Replaced.unique`), and it is the text that decoding gives (`decodeReplacing_eq_iff`).

Bytes that begin a character are never continued by text, which does not start with a continuation
byte. So bytes are replaced in front of a text as they are alone (`Replaced.append`), and the token
that an error shows keeps all text around them (`malformed_keeps_text`).
-/

namespace Teletype.Utf8

/-! ## Maximal subparts -/

/-- The bytes begin those of a character, or are all of them. -/
def Begins (bs : List UInt8) : Prop :=
  ∃ c, bs <+: encode [c]

/-- No character stands in front of the bytes, and the part in front is the longest that begins one,
or a single byte. -/
structure MaximalSubpart (part behind : List UInt8) : Prop where
  some : part ≠ []
  none : ∀ c, ¬ encode [c] <+: part ++ behind
  begins : Begins part ∨ part.length = 1
  longest : ∀ front, front <+: part ++ behind → Begins front → front.length ≤ part.length

section
variable {part behind part' behind' : List UInt8}

/-- Of two maximal subparts in front of the same bytes, neither is longer. -/
lemma MaximalSubpart.length_le (mx : MaximalSubpart part behind)
    (mx' : MaximalSubpart part' behind') (same : part ++ behind = part' ++ behind') :
    part.length ≤ part'.length := by
  cases mx.begins with
  | inl begins =>
    have front : part <+: part' ++ behind' := ⟨behind, same⟩
    exact mx'.longest part front begins
  | inr single =>
    rw [single]
    exact List.length_pos_of_ne_nil mx'.some

/-- The same bytes have one maximal subpart at most. -/
lemma MaximalSubpart.unique (mx : MaximalSubpart part behind)
    (mx' : MaximalSubpart part' behind') (same : part ++ behind = part' ++ behind') :
    part = part' ∧ behind = behind' := by
  have le := mx.length_le mx' same
  have ge := mx'.length_le mx same.symm
  exact List.append_inj same (Nat.le_antisymm le ge)

end

/-! ## Replaced bytes -/

/-- Every maximal subpart is replaced by one U+FFFD, and characters stay. -/
inductive Replaced : List UInt8 → List Char → Prop where
  | done :
    Replaced [] []
  | char {c behind cs} :
    Replaced behind cs →
    Replaced (encode [c] ++ behind) (c :: cs)
  | malformed {part behind cs} :
    MaximalSubpart part behind →
    Replaced behind cs →
    Replaced (part ++ behind) ('\uFFFD' :: cs)

variable {bs more front : List UInt8} {cs ds : List Char}

/-- Bytes with a character in front are not empty. -/
lemma encode_singleton_append_ne_nil (c : Char) (bs : List UInt8) : encode [c] ++ bs ≠ [] :=
  List.append_ne_nil_of_left_ne_nil (encode_ne_nil (List.cons_ne_nil c [])) bs

/-- Bytes are replaced in one way only. -/
lemma Replaced.unique (first : Replaced bs cs) (second : Replaced bs ds) : cs = ds := by
  induction first generalizing ds with
  | done =>
    generalize e : [] = bs at second
    cases second with
    | done => rfl
    | char => exact absurd e.symm (encode_singleton_append_ne_nil _ _)
    | malformed mx => exact absurd (List.append_eq_nil_iff.mp e.symm).1 mx.some
  | @char c behind cs _ ih =>
    generalize e : encode [c] ++ behind = bs at second
    cases second with
    | done => exact absurd e (encode_singleton_append_ne_nil _ _)
    | @char d behind' ds second =>
      obtain rfl := eq_of_prefix ⟨behind, e⟩ (List.prefix_append (encode [d]) behind')
      rw [List.append_cancel_left e] at ih
      rw [ih second]
    -- no maximal subpart stands where a character does
    | malformed mx => exact absurd ⟨behind, e⟩ (mx.none c)
  | @malformed part behind cs mx _ ih =>
    generalize e : part ++ behind = bs at second
    cases second with
    | done => exact absurd (List.append_eq_nil_iff.mp e).1 mx.some
    | @char d behind' => exact absurd ⟨behind', e.symm⟩ (mx.none d)
    | malformed mx' second =>
      obtain ⟨rfl, rfl⟩ := mx.unique mx' e
      rw [ih second]

/-! ## Decoding replaces -/

/-- Bytes that follow a lead byte are matched at least as far as they go on with those there. -/
lemma length_le_matched {ranges bs front rest} (fo : Follow ranges bs) (begins : front <+: bs)
    (stands : front <+: rest) : front.length ≤ matched ranges rest := by
  induction fo generalizing front rest with
  | nil => simp [List.prefix_nil.mp begins]
  | @cons r b ranges bs hb _ ih =>
    cases front with
    | nil => exact Nat.zero_le _
    | cons x front =>
      obtain ⟨rfl, within⟩ := List.cons_prefix_cons.mp begins
      obtain ⟨rest, rfl⟩ := stands
      have le := ih within (List.prefix_append front rest)
      rw [List.cons_append, matched, if_pos hb, List.length_cons]
      exact Nat.succ_le_succ le

/-- The bytes that are matched can be completed. -/
lemma exists_follow_matched {ranges bs} (fo : Follow ranges bs) (rest : List UInt8) :
    ∃ more, Follow ranges (rest.take (matched ranges rest) ++ more) := by
  induction fo generalizing rest with
  | nil => exact ⟨[], .nil⟩
  | @cons r b ranges bs hb fo ih =>
    cases rest with
    | nil => exact ⟨b :: bs, .cons hb fo⟩
    | cons x rest =>
      by_cases hx : r.contains x = true
      · obtain ⟨more, fo'⟩ := ih rest
        refine ⟨more, ?_⟩
        rw [matched, if_pos hx, List.take_succ_cons, List.cons_append]
        exact .cons hx fo'
      · refine ⟨b :: bs, ?_⟩
        rw [matched, if_neg hx, List.take_zero, List.nil_append]
        exact .cons hb fo

variable {lead : UInt8} {rest : List UInt8}

/-- What begins a character in front lies in the first segment. -/
lemma Begins.length_le (begins : Begins front) (stands : front <+: lead :: rest) :
    front.length ≤ reach lead rest + 1 := by
  obtain ⟨c, begins⟩ := begins
  obtain ⟨lead', ranges, bs, bytes, pat, fo, -⟩ := encodeChar_pattern c
  rw [encode_singleton, bytes] at begins
  cases front with
  | nil => exact Nat.zero_le _
  | cons x front =>
    obtain ⟨rfl, within⟩ := List.cons_prefix_cons.mp begins
    obtain ⟨rfl, ahead⟩ := List.cons_prefix_cons.mp stands
    rw [reach, followers_eq_some_iff.mpr pat, List.length_cons]
    exact Nat.succ_le_succ (length_le_matched fo within ahead)

/-- The first segment begins a character, or it is a first byte alone. -/
lemma begins_reach : Begins (lead :: rest.take (reach lead rest)) ∨ reach lead rest = 0 := by
  cases found : followers lead with
  | none => exact .inr (by rw [reach, found])
  | some ranges =>
    left
    have pat := followers_eq_some_iff.mp found
    obtain ⟨bs, fo⟩ := pat.exists_follow
    obtain ⟨more, fo'⟩ := exists_follow_matched fo rest
    obtain ⟨c, bytes⟩ := pat.exists_char fo'
    refine ⟨c, more, ?_⟩
    rw [encode_singleton, bytes, reach, found, List.cons_append]

/-- The first segment is a maximal subpart when it is no character. -/
lemma maximalSubpart_of_character? (none : character? lead rest = none) :
    MaximalSubpart (lead :: rest.take (reach lead rest)) (rest.drop (reach lead rest)) := by
  have whole : lead :: rest.take (reach lead rest) ++ rest.drop (reach lead rest) = lead :: rest :=
    congrArg (lead :: ·) (List.take_append_drop _ _)
  refine ⟨List.cons_ne_nil _ _, ?_, ?_, ?_⟩
  · rintro c ⟨behind, split⟩
    have found := segments_encodeChar_append c behind
    rw [← encode_singleton, split, whole, segments, none] at found
    cases (List.cons.inj found).1
  · refine begins_reach.imp_right fun zero => ?_
    rw [zero, List.take_zero, List.length_singleton]
  · intro front stands begins
    rw [whole] at stands
    have le := begins.length_le stands
    have short := stands.length_le
    simp only [List.length_cons, List.length_take] at short ⊢
    omega

/-- Decoding replaces the malformed bytes and nothing else. -/
lemma replaced_decodeReplacing (bs : List UInt8) : Replaced bs (decodeReplacing bs) := by
  rw [decodeReplacing]
  fun_induction segments bs with
  | case1 => exact .done
  | case2 lead rest ih =>
    cases found : character? lead rest with
    | some c =>
      have split := eq_encodeChar_of_character? found
      rw [← encode_singleton] at split
      rw [List.map_cons, split]
      exact .char ih
    | none =>
      have replaced := Replaced.malformed (maximalSubpart_of_character? found) ih
      rwa [List.cons_append, List.take_append_drop] at replaced

/-- What is decoded is what the bytes are replaced with. -/
lemma decodeReplacing_eq_iff : decodeReplacing bs = cs ↔ Replaced bs cs := by
  constructor
  · rintro rfl
    exact replaced_decodeReplacing bs
  · exact (replaced_decodeReplacing bs).unique

/-! ## Text around the bytes -/

/-- What begins a character ends where bytes start that do not go on with one. -/
lemma Begins.within (begins : Begins front) (some : bs ≠ []) (stands : front <+: bs ++ more)
    (stop : ∀ b ∈ more.head?, isContinuation b = false) : front <+: bs := by
  obtain ⟨c, begins⟩ := begins
  obtain ⟨lead, tail, bytes, -, -, all⟩ := encodeChar_shape c
  rw [encode_singleton, bytes] at begins
  obtain ⟨b, bs, rfl⟩ := List.exists_cons_of_ne_nil some
  cases front with
  | nil => exact List.nil_prefix
  | cons x run =>
    obtain ⟨rfl, inner⟩ := List.cons_prefix_cons.mp begins
    obtain ⟨rfl, ahead⟩ := List.cons_prefix_cons.mp stands
    refine List.cons_prefix_cons.mpr ⟨rfl, ?_⟩
    exact prefix_of_continuations (fun b mem => all b (inner.subset mem)) stop ahead

/-- A maximal subpart stays one when no continuation byte comes behind the bytes. -/
lemma MaximalSubpart.append {part behind} (mx : MaximalSubpart part behind)
    (stop : ∀ b ∈ more.head?, isContinuation b = false) : MaximalSubpart part (behind ++ more) := by
  have some : part ++ behind ≠ [] := List.append_ne_nil_of_left_ne_nil mx.some behind
  refine ⟨mx.some, fun c stands => ?_, mx.begins, fun front stands begins => ?_⟩
  · rw [← List.append_assoc] at stands
    exact mx.none c (Begins.within ⟨c, List.prefix_refl _⟩ some stands stop)
  · rw [← List.append_assoc] at stands
    exact mx.longest front (begins.within some stands stop) begins

/-- Bytes are replaced one after another where the second do not go on with a character. -/
lemma Replaced.append (first : Replaced bs cs) (second : Replaced more ds)
    (stop : ∀ b ∈ more.head?, isContinuation b = false) : Replaced (bs ++ more) (cs ++ ds) := by
  induction first with
  | done => exact second
  | char _ ih =>
    rw [List.append_assoc, List.cons_append]
    exact .char ih
  | malformed mx _ ih =>
    rw [List.append_assoc, List.cons_append]
    exact .malformed (mx.append stop) ih

/-- Characters in front are not touched. -/
lemma Replaced.text (cs : List Char) (second : Replaced bs ds) :
    Replaced (encode cs ++ bs) (cs ++ ds) := by
  induction cs with
  | nil => exact second
  | cons c cs ih =>
    rw [← List.singleton_append, encode_append, List.append_assoc]
    exact .char ih

/-- Nothing is replaced in encoded characters. -/
lemma replaced_encode (cs : List Char) : Replaced (encode cs) cs := by
  simpa using Replaced.text cs .done

end Teletype.Utf8

namespace Teletype.Error

open Utf8 (Replaced encode)

/-- The token that a format error shows keeps all text around some bytes. What it shows of the bytes
is decided by `Replaced`, and it is their text if they have one. -/
theorem malformed_keeps_text (expected u v : String) (bytes : List UInt8) :
    ∃ lossy : String, (∀ cs, Replaced bytes cs ↔ cs = lossy.toList) ∧
      (∀ text : String, bytes = encode text.toList → lossy = text) ∧
      malformed expected (encode u.toList ++ bytes ++ encode v.toList) =
        .format expected (u ++ lossy ++ v) := by
  have replaced := Utf8.replaced_decodeReplacing bytes
  refine ⟨String.ofList (Utf8.decodeReplacing bytes), fun cs => ?_, fun text is => ?_, ?_⟩
  · rw [String.toList_ofList, @eq_comm _ cs, Utf8.decodeReplacing_eq_iff]
  · rw [← String.toList_inj, String.toList_ofList, Utf8.decodeReplacing_eq_iff, is]
    exact Utf8.replaced_encode _
  · have behind := replaced.append (Utf8.replaced_encode v.toList) (Utf8.head?_encode _)
    have whole := Utf8.decodeReplacing_eq_iff.mpr (behind.text u.toList)
    rw [malformed, List.append_assoc, whole, String.ofList_append, String.ofList_append,
      String.ofList_toList, String.ofList_toList, String.append_assoc]

/-- A sequence that is cut off in front of a letter, the bytes of a surrogate, and a lead byte whose
second byte is beyond the last plane, between characters of two and of three bytes. -/
theorem malformed_keeps_text_surrogate :
    let bytes : List UInt8 := [0xE2, 0x82, 0x41, 0xED, 0xA0, 0x80, 0xF4, 0x90]
    let lossy := "\uFFFDA\uFFFD\uFFFD\uFFFD\uFFFD\uFFFD"
    Replaced bytes lossy.toList ∧
      malformed Expected.integer (encode "é".toList ++ bytes ++ encode "€".toList) =
        .format Expected.integer ("é" ++ lossy ++ "€") := by
  intro bytes lossy
  obtain ⟨found, replaced, -, keeps⟩ := malformed_keeps_text Expected.integer "é" "€" bytes
  have is : Replaced bytes lossy.toList := Utf8.decodeReplacing_eq_iff.mp (by cbv)
  have same : found = lossy := String.toList_inj.mp ((replaced _).mp is).symm
  rw [same] at keeps
  exact ⟨is, keeps⟩

end Teletype.Error
