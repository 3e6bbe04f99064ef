import Mathlib
import Teletype.Proofs.Utf8.Position
import Teletype.Text.Join

/-!
# Well-formed texts

A well-formed text holds the bytes of its characters in the place that their number calls for, with
the number of its characters beside them. `Text.ofChars` is the text of a list of characters. Each
operation on well-formed texts gives one of these, and the lemmas `append_eq`, `substring_eq` and so
on say which; no slice that they take can fail.
-/

namespace Teletype

/-- The bytes are where they belong: in front of the buffer when they fit, elsewhere otherwise. -/
inductive Storage.Holds : Storage → List UInt8 → Prop where
  | inline {bs buffer} :
    bs.length ≤ capacity →
    buffer.toList.take bs.length = bs →
    Storage.Holds (.inline bs.length buffer) bs
  | shared {bs} :
    capacity < bs.length →
    Storage.Holds (.shared bs) bs

/-- Bytes are stored where they belong. -/
lemma Storage.holds_ofBytes (bs : List UInt8) : (ofBytes bs).Holds bs := by
  unfold ofBytes
  split
  next fits => exact .inline fits (by simp)
  next large => exact .shared (Nat.lt_of_not_le large)

namespace Text

/-- A text that its operations may rely on. -/
structure WellFormed (t : Text) : Prop where
  utf8 : t.bytes = Utf8.encode t.toList
  counted : t.length = t.toList.length
  held : t.storage.Holds t.bytes
  inside : t.storage.isInline = true ↔ t.bytes.length ≤ Storage.capacity
  ascii : t.isAscii = true ↔ ∀ c ∈ t.toList, c.toNat < 0x80

/-- The text of some characters. -/
def ofChars (cs : List Char) : Text :=
  ofBytes (Utf8.encode cs) cs.length

/-- The text of some characters has these characters. -/
@[simp] lemma toList_ofChars (cs : List Char) : (ofChars cs).toList = cs := by
  simp [toList, ofChars]

/-- A text takes itself for ASCII just when its characters are. -/
lemma isAscii_iff {t : Text} (utf8 : t.bytes = Utf8.encode t.toList)
    (counted : t.length = t.toList.length) :
    t.isAscii = true ↔ ∀ c ∈ t.toList, c.toNat < 0x80 := by
  rw [isAscii, beq_iff_eq, counted, utf8]
  exact Utf8.length_encode_eq_iff t.toList

/-- The text of some characters is well-formed. -/
lemma wellFormed_ofChars (cs : List Char) : (ofChars cs).WellFormed := by
  have utf8 : (ofChars cs).bytes = Utf8.encode (ofChars cs).toList := by
    rw [toList_ofChars, ofChars, bytes_ofBytes]
  have counted : (ofChars cs).length = (ofChars cs).toList.length := by
    rw [toList_ofChars, ofChars, length_ofBytes]
  refine ⟨utf8, counted, ?_, ?_, isAscii_iff utf8 counted⟩
  · rw [ofChars, bytes_ofBytes]
    exact Storage.holds_ofBytes (Utf8.encode cs)
  · rw [ofChars, bytes_ofBytes, ofBytes, Storage.isInline_ofBytes, decide_eq_true_iff]

/-- Well-formed texts of the same characters compare as equal. -/
lemma WellFormed.beq {t u : Text} (wt : t.WellFormed) (wu : u.WellFormed)
    (same : t.toList = u.toList) : (t == u) = true := by
  show t.equal u = true
  simp [equal, wt.counted, wt.utf8, wu.counted, wu.utf8, same]

/-! ## Making texts of strings -/

/-- Counting the characters of encoded bytes gives their number. -/
lemma countChars_encode (cs : List Char) : countChars (Utf8.encode cs) = cs.length := by
  unfold countChars
  split
  next single =>
    rw [← Utf8.count_of_single (by simpa using single)]
    exact Utf8.count_encode cs
  next => exact Utf8.count_encode cs

/-- The empty text is the text of no characters. -/
lemma empty_eq : empty = ofChars [] :=
  rfl

/-- The text of a string is that of its characters. -/
lemma ofString_eq (s : String) : ofString s = ofChars s.toList := by
  rw [ofString, countChars_encode, ofChars]

/-- The text that takes over a string is that of its characters. -/
lemma ofOwned_eq (s : String) : ofOwned s = ofChars s.toList := by
  simp only [ofOwned, countChars_encode]
  split
  next fits => rfl
  next large => rw [ofChars, ofBytes, Storage.ofBytes, dif_neg large]

/-! ## Joining -/

/-- Well-formed texts put together are the text of their characters. -/
lemma append_eq {a b : Text} (wa : a.WellFormed) (wb : b.WellFormed) :
    a.append b = ofChars (a.toList ++ b.toList) := by
  rw [append, ofParts_eq, wa.utf8, wb.utf8, wa.counted, wb.counted, ofChars]
  simp

/-- Strings encoded one by one are their characters encoded. -/
lemma flatten_encode (parts : List String) :
    (parts.map fun s => Utf8.encode s.toList).flatten =
      Utf8.encode (parts.flatMap String.toList) := by
  induction parts with
  | nil => rfl
  | cons s parts ih =>
    rw [List.map_cons, List.flatten_cons, ih, List.flatMap_cons, Utf8.encode_append]

/-- Strings counted one by one are their characters counted. -/
lemma foldr_countChars (parts : List String) :
    (parts.map fun s => Utf8.encode s.toList).foldr (fun bs n => countChars bs + n) 0 =
      (parts.flatMap String.toList).length := by
  induction parts with
  | nil => rfl
  | cons s parts ih =>
    rw [List.map_cons, List.foldr_cons, ih, countChars_encode, List.flatMap_cons,
      List.length_append]

/-- Strings joined are the text of their characters. -/
lemma join_eq (parts : List String) : join parts = ofChars (parts.flatMap String.toList) := by
  rw [join, ofParts_eq, flatten_encode, foldr_countChars, ofChars]

/-! ## Slicing -/

/-- Character positions of well-formed text have the offsets of its bytes. -/
lemma byteOffset_eq {t : Text} (wf : t.WellFormed) {n : Nat} (le : n ≤ t.length) :
    t.byteOffset n = (Utf8.encode (t.toList.take n)).length := by
  rw [byteOffset]
  split
  next ascii =>
    -- every character in front is a single byte, so the position is the offset
    have front : ∀ c ∈ t.toList.take n, c.toNat < 0x80 := fun c mem =>
      wf.ascii.mp ascii c (List.mem_of_mem_take mem)
    rw [← (Utf8.length_encode_eq_iff _).mpr front, List.length_take, ← wf.counted]
    exact (Nat.min_eq_left le).symm
  next => rw [wf.utf8, Utf8.offset_encode]

/-- Between characters of well-formed text slicing does not fail. -/
lemma slice_eq {t : Text} (wf : t.WellFormed) {as bs cs : List Char}
    (split : t.toList = as ++ bs ++ cs) :
    t.slice (Utf8.encode as).length (Utf8.encode (as ++ bs)).length = .ok (Utf8.encode bs) := by
  rw [slice, wf.utf8, split, Utf8.slice?_encode]

/-- The slice behind a position encodes the characters behind it. -/
lemma slice_rest {t : Text} (wf : t.WellFormed) {n : Nat} (le : n ≤ t.length) :
    t.slice (t.byteOffset n) t.bytes.length = .ok (Utf8.encode (t.toList.drop n)) := by
  have split : t.toList = t.toList.take n ++ t.toList.drop n ++ [] := by simp
  have whole : t.bytes = Utf8.encode (t.toList.take n ++ t.toList.drop n) := by
    rw [List.take_append_drop, wf.utf8]
  rw [byteOffset_eq wf le, whole]
  exact slice_eq wf split

/-- A substring to the end has the characters from its start on. -/
lemma substring_eq {t : Text} (wf : t.WellFormed) {start : Int32} (low : 0 ≤ start.toInt)
    (high : start.toInt ≤ t.length) :
    t.substring start = .ok (ofChars (t.toList.drop start.toInt.toNat)) := by
  have inside : ¬ (start.toInt < 0 ∨ (t.length : Int) < start.toInt) := by omega
  rw [substring, if_neg inside, slice_rest wf (by omega)]
  show Except.ok (ofBytes _ _) = _
  rw [ofChars, List.length_drop, wf.counted]

/-- A substring of a length has as many characters from its start on. -/
lemma substringLen_eq {t : Text} (wf : t.WellFormed) {start len : Int32}
    (low : 0 ≤ start.toInt) (some : 0 ≤ len.toInt) (high : start.toInt + len.toInt ≤ t.length) :
    t.substringLen start len =
      .ok (ofChars ((t.toList.drop start.toInt.toNat).take len.toInt.toNat)) := by
  generalize hs : start.toInt = s at *
  generalize hn : len.toInt = n at *
  have le : s.toNat ≤ t.length := by omega
  have length : ((t.toList.drop s.toNat).take n.toNat).length = n.toNat := by
    rw [List.length_take, List.length_drop, ← wf.counted]
    omega
  have split : t.toList = t.toList.take s.toNat ++ (t.toList.drop s.toNat).take n.toNat ++
      (t.toList.drop s.toNat).drop n.toNat := by
    simp
  -- the second slice starts where the first one did, and its end was found in the first
  have part := slice_eq wf split
  rw [Utf8.encode_append, List.length_append] at part
  rw [substringLen, hs, hn, if_neg (by omega), if_neg (by omega), if_neg (by omega)]
  simp only [slice_rest wf le, bind, Except.bind, Utf8.offset_encode]
  rw [byteOffset_eq wf le, part]
  show Except.ok (ofBytes _ _) = _
  rw [ofChars, length]

end Text

end Teletype
