import Mathlib
import Teletype.Utf8.Position
import Teletype.Proofs.Utf8.Decoding

/-!
# Positions in encoded text

In the bytes of text the number of characters is the number of those that start, and a character
position has the length of the bytes before it as its offset. So cuts between characters are cuts
between bytes: `slice?_encode` says that slicing there cannot fail.
-/

namespace Teletype.Utf8

/-- Characters are encoded one behind the other. -/
lemma encode_cons (c : Char) (cs : List Char) :
    encode (c :: cs) = String.utf8EncodeChar c ++ encode cs :=
  rfl

/-- Text starts with a byte that does not go on with a character. -/
lemma head?_encode (cs : List Char) : ∀ b ∈ (encode cs).head?, isContinuation b = false := by
  cases cs with
  | nil => exact nofun
  | cons c cs =>
    obtain ⟨lead, tail, bytes, -, starts, -⟩ := encodeChar_shape c
    rw [encode_cons, bytes]
    intro b mem
    cases mem
    exact starts

/-- The bytes of a character count as one. -/
lemma count_encodeChar (c : Char) : count (String.utf8EncodeChar c) = 1 := by
  obtain ⟨lead, bs, bytes, _, start, all⟩ := encodeChar_shape c
  have none : bs.countP (fun b => !isContinuation b) = 0 := by
    rw [List.countP_eq_zero]
    intro b mem
    simp [all b mem]
  rw [bytes, count, List.countP_cons_of_pos (by simp [start]), none]

/-- Encoded characters count as many as they are. -/
@[simp] lemma count_encode (cs : List Char) : count (encode cs) = cs.length := by
  induction cs with
  | nil => rfl
  | cons c cs ih =>
    rw [encode_cons, count_append, count_encodeChar, ih, List.length_cons, Nat.add_comm]

/-! ## Offsets -/

/-- Continuation bytes in front move every offset by their number. -/
lemma offset_continuations {bs : List UInt8} (all : ∀ b ∈ bs, isContinuation b = true) (n : Nat)
    (rest : List UInt8) : offset n (bs ++ rest) = offset n rest + bs.length := by
  induction bs with
  | nil => rfl
  | cons b bs ih =>
    obtain ⟨hb, all⟩ := List.forall_mem_cons.mp all
    rw [List.cons_append, offset.eq_def]
    simp only [hb, if_true, ih all, List.length_cons, Nat.add_assoc]

/-- The offset of a position is the length of the characters before it. -/
lemma offset_encode (n : Nat) (cs : List Char) :
    offset n (encode cs) = (encode (cs.take n)).length := by
  induction cs generalizing n with
  | nil =>
    rw [List.take_nil]
    rfl
  | cons c cs ih =>
    obtain ⟨lead, bs, bytes, _, start, all⟩ := encodeChar_shape c
    have cont : ¬ isContinuation lead = true := by simp [start]
    rw [encode_cons, bytes, List.cons_append, offset.eq_def]
    cases n with
    | zero => simp [cont, encode]
    | succ n =>
      rw [List.take_succ_cons, encode_cons, bytes]
      simp only [cont, offset_continuations all, ih]
      simp [Nat.add_comm]

/-! ## Boundaries -/

/-- Between two encoded runs of characters there is a boundary. -/
lemma isBoundary_encode (cs ds : List Char) :
    isBoundary (encode cs ++ encode ds) (encode cs).length = true := by
  have start := head?_encode ds
  rw [isBoundary, List.drop_left]
  cases found : encode ds with
  | nil => simp
  | cons b bs => simp [start b (by rw [found]; rfl)]

/-- The bytes between two character positions are those of the characters between them. -/
lemma slice?_encode (as bs cs : List Char) :
    slice? (encode (as ++ bs ++ cs)) (encode as).length (encode (as ++ bs)).length =
      some (encode bs) := by
  have first : isBoundary (encode (as ++ bs ++ cs)) (encode as).length = true := by
    rw [List.append_assoc, encode_append]
    exact isBoundary_encode as (bs ++ cs)
  have last : isBoundary (encode (as ++ bs ++ cs)) (encode (as ++ bs)).length = true := by
    rw [encode_append (as ++ bs)]
    exact isBoundary_encode (as ++ bs) cs
  have order : (encode as).length ≤ (encode (as ++ bs)).length := by
    rw [encode_append, List.length_append]
    exact Nat.le_add_right _ _
  rw [slice?, if_pos ⟨order, first, last⟩]
  simp

/-! ## Beginnings -/

/-- Encoded characters stand in front just when the characters do. -/
lemma encode_prefix_iff {cs ds : List Char} : encode ds <+: encode cs ↔ ds <+: cs := by
  constructor
  · rintro ⟨rest, bytes⟩
    have found := congrArg segments bytes
    rw [← List.append_nil (encode cs), segments_encode_append, segments_encode_append,
      segments, List.append_nil] at found
    have front : ds.map some <+: cs.map some := ⟨_, found⟩
    exact (List.prefix_map_iff_of_injective (Option.some_injective Char)).mp front
  · rintro ⟨rest, rfl⟩
    rw [encode_append]
    exact List.prefix_append _ _

/-- At least one character makes at least one byte. -/
lemma encode_ne_nil {ds : List Char} (some : ds ≠ []) : encode ds ≠ [] := by
  obtain ⟨d, ds, rfl⟩ := List.exists_cons_of_ne_nil some
  obtain ⟨lead, bs, bytes, -⟩ := encodeChar_shape d
  rw [encode_cons, bytes]
  exact List.cons_ne_nil _ _

/-- No text begins in the middle of a character. -/
lemma not_prefix_of_continuation {ds : List Char} (some : ds ≠ []) {b : UInt8}
    (inner : isContinuation b = true) (bs : List UInt8) : ¬ encode ds <+: b :: bs := by
  obtain ⟨d, ds, rfl⟩ := List.exists_cons_of_ne_nil some
  obtain ⟨lead, tail, bytes, -, start, -⟩ := encodeChar_shape d
  rw [encode_cons, bytes, List.cons_append, List.cons_prefix_cons]
  rintro ⟨rfl, -⟩
  cases start.symm.trans inner

/-! ## Single bytes -/

/-- Bytes below 0x80 count as one character each. -/
lemma count_of_single {bs : List UInt8} (single : ∀ b ∈ bs, b < 0x80) : count bs = bs.length := by
  rw [count, List.countP_eq_length]
  intro b mem
  have low : b.toNat < 0x80 := UInt8.lt_iff_toNat_lt.mp (single b mem)
  have start : ¬ isContinuation b = true := by
    rw [isContinuation_iff]
    omega
  simpa using start

/-- A character has at least one byte, and only one just when it is ASCII. -/
lemma length_encodeChar (c : Char) : 1 ≤ (String.utf8EncodeChar c).length ∧
    ((String.utf8EncodeChar c).length = 1 ↔ c.toNat < 0x80) := by
  rw [String.length_utf8EncodeChar, Char.utf8Size_eq_one_iff]
  exact ⟨c.utf8Size_pos, UInt32.le_iff_toNat_le.trans Nat.lt_succ_iff.symm⟩

/-- There are no fewer bytes than characters. -/
lemma length_le_length_encode (cs : List Char) : cs.length ≤ (encode cs).length := by
  induction cs with
  | nil => exact Nat.le_refl 0
  | cons c cs ih =>
    have some := (length_encodeChar c).1
    rw [encode_cons, List.length_append, List.length_cons]
    omega

/-- There are as many characters as bytes exactly when every character is an ASCII character. -/
lemma length_encode_eq_iff (cs : List Char) :
    cs.length = (encode cs).length ↔ ∀ c ∈ cs, c.toNat < 0x80 := by
  induction cs with
  | nil => simp [encode]
  | cons c cs ih =>
    obtain ⟨some, single⟩ := length_encodeChar c
    have more := length_le_length_encode cs
    rw [List.forall_mem_cons, ← ih, ← single, encode_cons, List.length_append, List.length_cons]
    omega

/-- Each ASCII character is the byte of its value. -/
lemma encode_of_single {cs : List Char} (single : ∀ c ∈ cs, c.toNat < 0x80) :
    encode cs = cs.map fun c => UInt8.ofNat c.toNat := by
  induction cs with
  | nil => rfl
  | cons c cs ih =>
    obtain ⟨hc, single⟩ := List.forall_mem_cons.mp single
    rw [encode_cons, encodeChar_one hc, ih single, List.singleton_append, List.map_cons]

/-- A byte below 0x80 is a character of its own, never a part of a longer one. -/
lemma toNat_eq_of_mem_encodeChar {c : Char} {b : UInt8} (low : b.toNat < 0x80)
    (mem : b ∈ String.utf8EncodeChar c) : c.toNat = b.toNat := by
  obtain ⟨lead, ranges, bs, bytes, pat, fo, value⟩ := encodeChar_pattern c
  rw [bytes] at mem
  rcases List.mem_cons.mp mem with rfl | mem
  · cases pat with
    | one =>
      cases fo
      exact value.symm
    | two | three | four => omega
  · have high := isContinuation_iff.mp (pat.continuation fo b mem)
    omega

/-- A byte below 0x80 belongs to the character that it is. -/
lemma exists_of_mem_encode {cs : List Char} {b : UInt8} (low : b.toNat < 0x80)
    (mem : b ∈ encode cs) : ∃ c ∈ cs, c.toNat = b.toNat := by
  obtain ⟨c, hc, mem⟩ := List.mem_flatMap.mp mem
  exact ⟨c, hc, toNat_eq_of_mem_encodeChar low mem⟩

/-- A byte below 0x80 at the end is the last character. -/
lemma exists_of_getLast?_encode {cs : List Char} {b : UInt8} (low : b.toNat < 0x80)
    (last : (encode cs).getLast? = some b) : ∃ c, cs.getLast? = some c ∧ c.toNat = b.toNat := by
  rcases cs.eq_nil_or_concat' with rfl | ⟨front, c, rfl⟩
  · cases last
  · have single : encode [c] = String.utf8EncodeChar c := List.append_nil _
    have some : encode [c] ≠ [] := encode_ne_nil (List.cons_ne_nil c [])
    rw [encode_append, List.getLast?_append_of_ne_nil _ some, single] at last
    exact ⟨c, List.getLast?_concat, toNat_eq_of_mem_encodeChar low (List.mem_of_getLast? last)⟩

end Teletype.Utf8
