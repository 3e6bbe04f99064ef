import Mathlib
import Teletype.Proofs.Utf8.Position

/-!
# Characters in front of bytes

Which character stands in front of some bytes is decided by its own bytes: there is one at most
(`eq_of_prefix`), and it has as many bytes as the first of them calls for (`shape_of_prefix`).
`Incomplete` bytes are those that end before all of these are there.
-/

namespace Teletype.Utf8

/-- A lead byte with fewer continuation bytes than its characters have. -/
inductive Incomplete : List UInt8 → Prop where
  | cut {c lead tail more} :
    String.utf8EncodeChar c = lead :: tail →
    (∀ b ∈ more, isContinuation b = true) →
    more.length < tail.length →
    Incomplete (lead :: more)

/-- One character is encoded as itself. -/
lemma encode_singleton (c : Char) : encode [c] = String.utf8EncodeChar c :=
  List.append_nil _

/-- Bytes that go on with a character do not reach into bytes behind that do not. -/
lemma prefix_of_continuations {run bs behind : List UInt8}
    (all : ∀ b ∈ run, isContinuation b = true)
    (stop : ∀ b ∈ behind.head?, isContinuation b = false) (stands : run <+: bs ++ behind) :
    run <+: bs := by
  rcases List.prefix_or_prefix_of_prefix stands (List.prefix_append bs behind) with within | beyond
  · exact within
  · obtain ⟨beyond, rfl⟩ := beyond
    cases beyond with
    | nil => rw [List.append_nil]
    | cons x beyond =>
      obtain ⟨rest, rfl⟩ := (List.prefix_append_right_inj _).mp stands
      cases (all x (by simp)).symm.trans (stop x rfl)

/-- A sequence that fits a row of the table is a character. -/
lemma Pattern.exists_char {lead ranges bs} (pat : Pattern lead ranges) (fo : Follow ranges bs) :
    ∃ c, String.utf8EncodeChar c = lead :: bs := by
  obtain ⟨valid, unique⟩ := encodeChar_of_pattern pat fo
  have value : (Char.ofNat (scalar lead bs)).toNat = scalar lead bs := by
    rw [Char.toNat_ofNat, if_pos valid]
  exact ⟨_, unique _ value⟩

/-- The least bytes of the ranges follow the lead byte. -/
lemma Pattern.exists_follow {lead ranges} (pat : Pattern lead ranges) : ∃ bs, Follow ranges bs := by
  have order : ∀ r ∈ ranges, r.low ≤ r.high := by
    cases pat with
    | one => simp
    | two => simp [ByteRange.continuation]
    | three =>
      simp only [List.forall_mem_cons, secondOfThree, ByteRange.continuation]
      split_ifs <;> first | omega | simp
    | four =>
      simp only [List.forall_mem_cons, secondOfFour, ByteRange.continuation]
      split_ifs <;> first | omega | simp
  refine ⟨ranges.map fun r => UInt8.ofNat r.low, ?_⟩
  rw [Follow, List.forall₂_map_right_iff, List.forall₂_same]
  intro r mem
  have high := (pat.within r mem).2
  have low : (UInt8.ofNat r.low).toNat = r.low := by
    have least := order r mem
    rw [UInt8.toNat_ofNat']
    omega
  rw [ByteRange.contains_iff, low]
  exact ⟨Nat.le_refl _, order r mem⟩

/-- A byte that calls for others starts a character with as many. -/
lemma exists_of_width {lead : UInt8} {width} (hw : width? lead = some width) :
    ∃ c tail, String.utf8EncodeChar c = lead :: tail ∧ tail.length = width - 1 := by
  obtain ⟨ranges, found, rfl⟩ := Option.map_eq_some_iff.mp hw
  have pat := followers_eq_some_iff.mp found
  obtain ⟨bs, fo⟩ := pat.exists_follow
  obtain ⟨c, bytes⟩ := pat.exists_char fo
  exact ⟨c, bs, bytes, fo.length_eq.symm⟩

/-- Bytes are incomplete just when they are a lead byte and too few continuation bytes for it. -/
lemma incomplete_iff {lead rest} : Incomplete (lead :: rest) ↔ ∃ width,
    width? lead = some width ∧ (∀ b ∈ rest, isContinuation b = true) ∧
      rest.length < width - 1 := by
  constructor
  · rintro (⟨bytes, all, short⟩)
    obtain ⟨lead', tail, bytes', wide, -⟩ := encodeChar_shape _
    obtain ⟨rfl, rfl⟩ := List.cons.inj (bytes.symm.trans bytes')
    exact ⟨_, wide, all, short⟩
  · rintro ⟨width, wide, all, short⟩
    obtain ⟨c, tail, bytes, len⟩ := exists_of_width wide
    exact .cut bytes all (len ▸ short)

/-- The character in front has as many bytes as the first of them calls for. -/
lemma shape_of_prefix {c : Char} {lead rest} (front : encode [c] <+: lead :: rest) :
    ∃ tail, encode [c] = lead :: tail ∧ width? lead = some (tail.length + 1) ∧
      (∀ b ∈ tail, isContinuation b = true) ∧ tail <+: rest := by
  obtain ⟨lead', tail, bytes, wide, -, all⟩ := encodeChar_shape c
  rw [encode_singleton, bytes] at front ⊢
  obtain ⟨rfl, behind⟩ := List.cons_prefix_cons.mp front
  exact ⟨tail, rfl, wide, all, behind⟩

/-- Data that leads with a character is not cut in it. -/
lemma Incomplete.not_prefix {r : List UInt8} (cut : Incomplete r) (c : Char) :
    ¬ encode [c] <+: r := by
  intro front
  cases r with
  | nil => cases cut
  | cons lead rest =>
    obtain ⟨tail, -, wide, -, behind⟩ := shape_of_prefix front
    obtain ⟨width, hw, -, short⟩ := incomplete_iff.mp cut
    obtain rfl := Option.some.inj (wide.symm.trans hw)
    exact absurd behind.length_le (Nat.not_le_of_lt short)

/-- At most one character has its bytes in front. -/
lemma eq_of_prefix {c d : Char} {r : List UInt8} (hc : encode [c] <+: r) (hd : encode [d] <+: r) :
    c = d := by
  obtain ⟨rest, rfl⟩ := hc
  obtain ⟨rest', same⟩ := hd
  have found := congrArg segments same
  rw [segments_encode_append, segments_encode_append] at found
  exact (Option.some.inj (List.cons.inj found).1).symm

end Teletype.Utf8
