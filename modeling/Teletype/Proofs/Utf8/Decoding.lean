import Mathlib
import Teletype.Utf8.Basic

/-!
# Decoding inverts encoding

The table of followers describes exactly the byte sequences of characters. `Pattern` restates its
rows; `encodeChar_pattern` finds the row of a character's bytes, and `encodeChar_of_pattern` the
character of a sequence that fits a row. The segments of encoded text are its characters
(`segments_encode_append`), so `decode?` finds nothing but what `encode` has written
(`decode?_eq_some_iff`).
-/

namespace Teletype.Utf8

/-- A range holds the bytes between its ends. -/
lemma ByteRange.contains_iff {r : ByteRange} {b : UInt8} :
    r.contains b = true ↔ r.low ≤ b.toNat ∧ b.toNat ≤ r.high := by
  simp only [ByteRange.contains, decide_eq_true_eq]

/-- Continuation bytes lie between 0x80 and 0xBF. -/
lemma isContinuation_iff {b : UInt8} :
    isContinuation b = true ↔ 0x80 ≤ b.toNat ∧ b.toNat < 0xC0 := by
  rw [isContinuation, ByteRange.contains_iff]
  simp only [ByteRange.continuation]
  omega

/-- Six bits above 0x80 are a continuation byte. -/
lemma isContinuation_ofNat (n : Nat) : isContinuation (UInt8.ofNat (n % 64 + 128)) = true := by
  rw [isContinuation_iff, UInt8.toNat_ofNat']
  omega

/-- A byte is known by its number. -/
lemma ofNat_eq {b : UInt8} {n : Nat} (h : n = b.toNat) : UInt8.ofNat n = b := by
  rw [h, UInt8.ofNat_toNat]

/-! ## The table of followers -/

/-- The second bytes of three behind a first one, without overlong forms and surrogates. -/
def secondOfThree (lead : UInt8) : ByteRange :=
  ⟨if lead.toNat = 0xE0 then 0xA0 else 0x80, if lead.toNat = 0xED then 0x9F else 0xBF⟩

/-- The second bytes of four behind a first one, without overlong forms and the planes above. -/
def secondOfFour (lead : UInt8) : ByteRange :=
  ⟨if lead.toNat = 0xF0 then 0x90 else 0x80, if lead.toNat = 0xF4 then 0x8F else 0xBF⟩

/-- The second of three is a continuation byte, but neither overlong nor a surrogate's. -/
lemma secondOfThree_iff {lead b : UInt8} : (secondOfThree lead).contains b = true ↔
    0x80 ≤ b.toNat ∧ b.toNat < 0xC0 ∧ (lead.toNat = 0xE0 → 0xA0 ≤ b.toNat) ∧
      (lead.toNat = 0xED → b.toNat < 0xA0) := by
  rw [ByteRange.contains_iff]
  simp only [secondOfThree]
  split_ifs <;> omega

/-- The second of four is a continuation byte, but neither overlong nor beyond the last plane. -/
lemma secondOfFour_iff {lead b : UInt8} : (secondOfFour lead).contains b = true ↔
    0x80 ≤ b.toNat ∧ b.toNat < 0xC0 ∧ (lead.toNat = 0xF0 → 0x90 ≤ b.toNat) ∧
      (lead.toNat = 0xF4 → b.toNat < 0x90) := by
  rw [ByteRange.contains_iff]
  simp only [secondOfFour]
  split_ifs <;> omega

/-- The rows of the table, by the length of the sequences. -/
inductive Pattern (lead : UInt8) : List ByteRange → Prop where
  | one :
    lead.toNat < 0x80 →
    Pattern lead []
  | two :
    0xC2 ≤ lead.toNat → lead.toNat < 0xE0 →
    Pattern lead [.continuation]
  | three :
    0xE0 ≤ lead.toNat → lead.toNat < 0xF0 →
    Pattern lead [secondOfThree lead, .continuation]
  | four :
    0xF0 ≤ lead.toNat → lead.toNat < 0xF5 →
    Pattern lead [secondOfFour lead, .continuation, .continuation]

/-- The table with the rows of one length taken together. -/
lemma followers_eq (lead : UInt8) : followers lead =
    if lead.toNat < 0x80 then some []
    else if lead.toNat < 0xC2 then none
    else if lead.toNat < 0xE0 then some [.continuation]
    else if lead.toNat < 0xF0 then some [secondOfThree lead, .continuation]
    else if lead.toNat < 0xF5 then some [secondOfFour lead, .continuation, .continuation]
    else none := by
  simp only [followers, secondOfThree, secondOfFour, ByteRange.continuation]
  split_ifs <;> first | rfl | omega

/-- `Pattern` has the rows of the table and no others. -/
lemma followers_eq_some_iff {lead ranges} :
    followers lead = some ranges ↔ Pattern lead ranges := by
  rw [followers_eq]
  constructor
  · intro h
    split_ifs at h <;> cases h
    · exact .one ‹_›
    · exact .two (by omega) ‹_›
    · exact .three (by omega) ‹_›
    · exact .four (by omega) ‹_›
  · intro pat
    cases pat <;> split_ifs <;> first | omega | rfl

/-- The bytes lie in the ranges one by one. -/
abbrev Follow (ranges : List ByteRange) (bs : List UInt8) : Prop :=
  List.Forall₂ (fun r b => ByteRange.contains r b = true) ranges bs

/-- No range of the table goes beyond the continuation bytes. -/
lemma Pattern.within {lead ranges} (pat : Pattern lead ranges) :
    ∀ r ∈ ranges, 0x80 ≤ r.low ∧ r.high ≤ 0xBF := by
  cases pat with
  | one => simp
  | two => simp [ByteRange.continuation]
  | three =>
    simp only [List.forall_mem_cons, secondOfThree, ByteRange.continuation]
    split_ifs <;> simp
  | four =>
    simp only [List.forall_mem_cons, secondOfFour, ByteRange.continuation]
    split_ifs <;> simp

/-- All bytes behind the first one are continuation bytes. -/
lemma Pattern.continuation {lead ranges bs} (pat : Pattern lead ranges) (fo : Follow ranges bs) :
    ∀ b ∈ bs, isContinuation b = true := by
  have within := pat.within
  clear pat
  induction fo with
  | nil => simp
  | @cons r b ranges bs hb _ ih =>
    obtain ⟨⟨low, high⟩, rest⟩ := List.forall_mem_cons.mp within
    obtain ⟨above, below⟩ := ByteRange.contains_iff.mp hb
    refine List.forall_mem_cons.mpr ⟨?_, ih rest⟩
    exact isContinuation_iff.mpr ⟨by omega, by omega⟩

/-- The first byte of a row is no continuation byte. -/
lemma Pattern.lead {lead ranges} (pat : Pattern lead ranges) : isContinuation lead = false := by
  rw [Bool.eq_false_iff, Ne, isContinuation_iff]
  cases pat <;> omega

/-! ## The bytes of a character -/

section
variable {c : Char}

/-- Seven bits make one byte. -/
lemma encodeChar_one (high : c.toNat < 0x80) :
    String.utf8EncodeChar c = [UInt8.ofNat c.toNat] :=
  if_pos (Nat.le_of_lt_succ high)

/-- Eleven bits make two bytes. -/
lemma encodeChar_two (low : 0x80 ≤ c.toNat) (high : c.toNat < 0x800) :
    String.utf8EncodeChar c =
      [UInt8.ofNat (c.toNat / 64 % 32 + 192), UInt8.ofNat (c.toNat % 64 + 128)] :=
  (if_neg (Nat.not_le_of_lt low)).trans (if_pos (Nat.le_of_lt_succ high))

/-- Sixteen bits make three bytes. -/
lemma encodeChar_three (low : 0x800 ≤ c.toNat) (high : c.toNat < 0x10000) :
    String.utf8EncodeChar c =
      [UInt8.ofNat (c.toNat / 4096 % 16 + 224), UInt8.ofNat (c.toNat / 64 % 64 + 128),
        UInt8.ofNat (c.toNat % 64 + 128)] := by
  have large : ¬ c.val.toNat ≤ 0x7FF := Nat.not_le_of_lt low
  exact (if_neg (by omega)).trans ((if_neg large).trans (if_pos (Nat.le_of_lt_succ high)))

/-- More bits make four bytes. -/
lemma encodeChar_four (low : 0x10000 ≤ c.toNat) :
    String.utf8EncodeChar c =
      [UInt8.ofNat (c.toNat / 262144 % 8 + 240), UInt8.ofNat (c.toNat / 4096 % 64 + 128),
        UInt8.ofNat (c.toNat / 64 % 64 + 128), UInt8.ofNat (c.toNat % 64 + 128)] := by
  have large : ¬ c.val.toNat ≤ 0xFFFF := Nat.not_le_of_lt low
  exact (if_neg (by omega)).trans ((if_neg (by omega)).trans (if_neg large))

end

/-- The bytes of a character fit a row of the table and stand for its value. -/
lemma encodeChar_pattern (c : Char) : ∃ lead ranges bs,
    String.utf8EncodeChar c = lead :: bs ∧ Pattern lead ranges ∧ Follow ranges bs ∧
      scalar lead bs = c.toNat := by
  have valid : c.toNat < 0xD800 ∨ 0xDFFF < c.toNat ∧ c.toNat < 0x110000 := c.valid
  -- the value chooses the row, and its high bits narrow the second byte of three and of four
  by_cases one : c.toNat < 0x80
  · refine ⟨_, _, _, encodeChar_one one, .one ?_, .nil, ?_⟩
    all_goals simp only [scalar, UInt8.toNat_ofNat']
    all_goals omega
  by_cases two : c.toNat < 0x800
  · refine ⟨_, _, _, encodeChar_two (by omega) two, .two ?_ ?_,
      .cons (isContinuation_ofNat _) .nil, ?_⟩
    all_goals simp only [scalar, UInt8.toNat_ofNat']
    all_goals omega
  by_cases three : c.toNat < 0x10000
  · refine ⟨_, _, _, encodeChar_three (by omega) three, .three ?_ ?_,
      .cons (secondOfThree_iff.mpr ?_) (.cons (isContinuation_ofNat _) .nil), ?_⟩
    all_goals simp only [scalar, UInt8.toNat_ofNat']
    all_goals omega
  · refine ⟨_, _, _, encodeChar_four (by omega), .four ?_ ?_,
      .cons (secondOfFour_iff.mpr ?_)
        (.cons (isContinuation_ofNat _) (.cons (isContinuation_ofNat _) .nil)), ?_⟩
    all_goals simp only [scalar, UInt8.toNat_ofNat']
    all_goals omega

/-- A sequence that fits a row of the table holds the bytes of the character it stands for. -/
lemma encodeChar_of_pattern {lead ranges bs}
    (pat : Pattern lead ranges) (fo : Follow ranges bs) :
    (scalar lead bs).isValidChar ∧
      ∀ c : Char, c.toNat = scalar lead bs → String.utf8EncodeChar c = lead :: bs := by
  have byte := lead.toNat_lt
  -- the range of the second byte keeps the value within the bounds of its row
  cases pat with
  | one high =>
    cases fo
    simp only [scalar, Nat.isValidChar]
    refine ⟨by omega, fun c value => ?_⟩
    rw [encodeChar_one (by omega), ofNat_eq value]
  | two low high =>
    obtain _ | ⟨hb, _ | _⟩ := fo
    have hb := isContinuation_iff.mp hb
    simp only [scalar, Nat.isValidChar]
    refine ⟨by omega, fun c value => ?_⟩
    rw [encodeChar_two (by omega) (by omega)]
    simp only [List.cons.injEq, and_true]
    refine ⟨ofNat_eq ?_, ofNat_eq ?_⟩ <;> omega
  | three low high =>
    obtain _ | ⟨hb, _ | ⟨hd, _ | _⟩⟩ := fo
    have hb := secondOfThree_iff.mp hb
    have hd := isContinuation_iff.mp hd
    simp only [scalar, Nat.isValidChar]
    refine ⟨by omega, fun c value => ?_⟩
    rw [encodeChar_three (by omega) (by omega)]
    simp only [List.cons.injEq, and_true]
    refine ⟨ofNat_eq ?_, ofNat_eq ?_, ofNat_eq ?_⟩ <;> omega
  | four low high =>
    obtain _ | ⟨hb, _ | ⟨hd, _ | ⟨he, _ | _⟩⟩⟩ := fo
    have hb := secondOfFour_iff.mp hb
    have hd := isContinuation_iff.mp hd
    have he := isContinuation_iff.mp he
    simp only [scalar, Nat.isValidChar]
    refine ⟨by omega, fun c value => ?_⟩
    rw [encodeChar_four (by omega)]
    simp only [List.cons.injEq, and_true]
    refine ⟨ofNat_eq ?_, ofNat_eq ?_, ofNat_eq ?_, ofNat_eq ?_⟩ <;> omega

/-- A character is a first byte and the continuation bytes that this one calls for. -/
lemma encodeChar_shape (c : Char) : ∃ lead bs,
    String.utf8EncodeChar c = lead :: bs ∧ width? lead = some (bs.length + 1) ∧
      isContinuation lead = false ∧ ∀ b ∈ bs, isContinuation b = true := by
  obtain ⟨lead, ranges, bs, bytes, pat, fo, _⟩ := encodeChar_pattern c
  refine ⟨lead, bs, bytes, ?_, pat.lead, pat.continuation fo⟩
  rw [width?, followers_eq_some_iff.mpr pat, Option.map_some, fo.length_eq]

/-! ## Segments -/

/-- Bytes that fill a row match all of it, whatever stands behind them. -/
lemma matched_append {ranges bs} (fo : Follow ranges bs) (rest : List UInt8) :
    matched ranges (bs ++ rest) = ranges.length := by
  induction fo with
  | nil => simp [matched]
  | cons hb _ ih => simp [matched, hb, ih]

/-- Where all of a row matches, the bytes in front fill it. -/
lemma follow_of_matched {ranges bs} (h : matched ranges bs = ranges.length) :
    Follow ranges (bs.take ranges.length) := by
  induction ranges generalizing bs with
  | nil => exact .nil
  | cons r ranges ih =>
    cases bs with
    | nil => simp [matched] at h
    | cons b bs =>
      simp only [matched, List.length_cons] at h
      split_ifs at h with hb
      · exact .cons hb (ih (Nat.succ.inj h))

/-- A character is found where its bytes stand, and they are its segment. -/
lemma segments_encodeChar_append (c : Char) (rest : List UInt8) :
    segments (String.utf8EncodeChar c ++ rest) = some c :: segments rest := by
  obtain ⟨lead, ranges, bs, bytes, pat, fo, value⟩ := encodeChar_pattern c
  rw [bytes, List.cons_append, segments]
  simp only [character?, reach, followers_eq_some_iff.mpr pat, matched_append fo rest, if_true,
    fo.length_eq, List.take_left, List.drop_left, value, Char.ofNat_toNat]

/-- Only the bytes of a character are found as that character. -/
lemma eq_encodeChar_of_character? {lead rest c} (h : character? lead rest = some c) :
    lead :: rest = String.utf8EncodeChar c ++ rest.drop (reach lead rest) := by
  unfold character? at h
  split at h
  · cases h
  · rename_i ranges found
    split_ifs at h with whole
    have fo := follow_of_matched whole
    obtain ⟨valid, unique⟩ := encodeChar_of_pattern (followers_eq_some_iff.mp found) fo
    have reached : reach lead rest = ranges.length := by simp only [reach, found, whole]
    rw [unique c, reached, List.cons_append, List.take_append_drop]
    rw [← Option.some.inj h, Char.toNat_ofNat, if_pos valid]

/-- Encoded characters in front are segments of their own. -/
@[simp] lemma segments_encode_append (cs : List Char) (rest : List UInt8) :
    segments (encode cs ++ rest) = cs.map some ++ segments rest := by
  induction cs with
  | nil => rfl
  | cons c cs ih =>
    change segments ((String.utf8EncodeChar c ++ encode cs) ++ rest) = _
    rw [List.append_assoc, segments_encodeChar_append, ih]
    rfl

/-- Bytes whose segments are all characters are those characters encoded. -/
lemma eq_encode_of_segments {bs cs} (h : segments bs = cs.map some) : bs = encode cs := by
  induction cs generalizing bs with
  | nil =>
    cases bs with
    | nil => rfl
    | cons lead rest => simp [segments] at h
  | cons c cs ih =>
    cases bs with
    | nil => simp [segments] at h
    | cons lead rest =>
      rw [segments] at h
      obtain ⟨first, more⟩ := List.cons.inj h
      rw [eq_encodeChar_of_character? first, ih more]
      rfl

/-- All values are there just when none is missing. -/
lemma mapM_id_eq_some_iff {α : Type} {xs : List (Option α)} {ys : List α} :
    xs.mapM id = some ys ↔ xs = ys.map some := by
  induction xs generalizing ys with
  | nil => cases ys <;> simp
  | cons x xs ih => cases x <;> cases ys <;> simp [Option.bind_eq_some_iff, ih, and_comm]

/-- Decoding succeeds exactly on what encoding has written. -/
theorem decode?_eq_some_iff {bs cs} : decode? bs = some cs ↔ bs = encode cs := by
  rw [decode?, mapM_id_eq_some_iff]
  constructor
  · exact eq_encode_of_segments
  · rintro rfl
    simpa [segments] using segments_encode_append cs []

/-- Encoded characters decode to themselves. -/
@[simp] lemma decode?_encode (cs : List Char) : decode? (encode cs) = some cs :=
  decode?_eq_some_iff.mpr rfl

/-- Different characters are encoded differently. -/
lemma encode_injective : Function.Injective encode := by
  intro cs ds same
  rw [← Option.some_inj, ← decode?_encode, same, decode?_encode]

end Teletype.Utf8
