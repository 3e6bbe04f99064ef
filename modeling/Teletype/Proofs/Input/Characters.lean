import Mathlib
import Teletype.Proofs.Input.Accounting
import Teletype.Proofs.Input.Chunking
import Teletype.Proofs.Utf8.Prefix

/-!
# Reading characters

What a read of a character gives is decided by the data in front of it: `Decodes` says for each
outcome exactly on which data it comes, in terms of the bytes of characters alone. A read never goes
beyond the continuation bytes behind its first byte, so reads that are lost in bytes that are no
text find the first character behind them (`chars_resynchronize`).
-/

namespace Teletype.Scanner

open Utf8 (encode Incomplete isContinuation)

/-! ## One character -/

/-- What the data in front makes of a read of a character. -/
inductive Flat.Chars : List UInt8 → Reading → Prop where
  | char {c rest} :
    Flat.Chars (encode [c] ++ rest) ⟨.ok (.char c), encode [c]⟩
  | incomplete {r} :
    Incomplete r →
    Flat.Chars r ⟨.error (.error (.malformed Expected.completeUtf8 r)), r⟩
  | malformed {lead more rest} :
    (∀ c, ¬ encode [c] <+: lead :: (more ++ rest)) →
    ¬ Incomplete (lead :: (more ++ rest)) →
    (∀ b ∈ more, isContinuation b = true) →
    more.length ≤ 3 →
    Flat.Chars (lead :: (more ++ rest))
      ⟨.error (.error (.malformed Expected.utf8 (lead :: more))), lead :: more⟩
  | ended :
    Flat.Chars [] ⟨.error (.error .endOfInput), []⟩

/-- The continuation bytes taken are the ones in front, at most as many as called for. -/
lemma Flat.more_spec (n : Nat) (r : List UInt8) : Flat.more n r <+: r ∧
    (∀ b ∈ Flat.more n r, isContinuation b = true) ∧ (Flat.more n r).length ≤ n := by
  have front : Flat.more n r <+: r.take n := List.takeWhile_prefix _
  refine ⟨front.trans (List.take_prefix _ _), fun _ => List.mem_takeWhile_imp, ?_⟩
  exact front.length_le.trans (List.length_take_le _ _)

/-- What is neither a character nor cut in one is malformed, up to the continuation bytes in
front. -/
lemma Flat.chars_malformed {lead rest} {n : Nat} (none : ∀ c, ¬ encode [c] <+: lead :: rest)
    (uncut : ¬ Incomplete (lead :: rest)) (le : n ≤ 3) :
    Flat.Chars (lead :: rest)
      ⟨.error (.error (.malformed Expected.utf8 (lead :: Flat.more n rest))),
        lead :: Flat.more n rest⟩ := by
  obtain ⟨⟨behind, split⟩, all, len⟩ := Flat.more_spec n rest
  generalize Flat.more n rest = more at *
  subst split
  exact .malformed none uncut all (len.trans le)

/-- A character in front is the first byte with the continuation bytes that it calls for. -/
lemma Flat.more_of_prefix {c : Char} {lead rest width} (hw : Utf8.width? lead = some width)
    (front : encode [c] <+: lead :: rest) :
    encode [c] = lead :: Flat.more (width - 1) rest ∧
      (Flat.more (width - 1) rest).length = width - 1 := by
  obtain ⟨tail, bytes, wide, all, behind, rfl⟩ := Utf8.shape_of_prefix front
  obtain rfl := Option.some.inj (wide.symm.trans hw)
  have found : Flat.more tail.length (tail ++ behind) = tail :=
    Flat.more_append all (Nat.le_refl _) fun short => absurd short (Nat.lt_irrefl _)
  rw [Nat.add_sub_cancel, found]
  exact ⟨bytes, rfl⟩

/-- A first byte that is none. -/
lemma Flat.chars_noLead {lead rest} (hw : Utf8.width? lead = none) :
    Flat.Chars (lead :: rest) ⟨.error (.error (.malformed Expected.utf8 [lead])), [lead]⟩ := by
  refine Flat.chars_malformed (n := 0) (fun c front => ?_) (fun cut => ?_) (Nat.zero_le 3)
  · obtain ⟨tail, -, wide, -⟩ := Utf8.shape_of_prefix front
    cases wide.symm.trans hw
  · obtain ⟨width, wide, -⟩ := Utf8.incomplete_iff.mp cut
    cases wide.symm.trans hw

/-- All continuation bytes are there. -/
lemma Flat.chars_decoded {lead rest width} (hw : Utf8.width? lead = some width)
    (enough : (Flat.more (width - 1) rest).length = width - 1) :
    Flat.Chars (lead :: rest)
      ⟨Flat.decoded (lead :: Flat.more (width - 1) rest),
        lead :: Flat.more (width - 1) rest⟩ := by
  have wide := width_le hw
  obtain ⟨front, -, -⟩ := Flat.more_spec (width - 1) rest
  rw [Flat.decoded]
  split
  next c cs found =>
    have bytes := eq_encode_of_width hw enough found
    obtain ⟨behind, split⟩ := front
    have whole : lead :: rest = encode [c] ++ behind := by
      rw [← bytes, List.cons_append, split]
    rw [whole, bytes]
    exact .char
  next other =>
    refine Flat.chars_malformed (fun c front => ?_) (fun cut => ?_) (by omega)
    · have bytes := (Flat.more_of_prefix hw front).1
      exact other c [] (bytes ▸ Utf8.decode?_encode [c])
    · obtain ⟨width', hw', -, short⟩ := Utf8.incomplete_iff.mp cut
      obtain rfl := Option.some.inj (hw.symm.trans hw')
      exact absurd front.length_le (by omega)

/-- Some continuation bytes are missing: the data end there, or something else stands there. -/
lemma Flat.chars_short {lead rest width} (hw : Utf8.width? lead = some width)
    (few : (Flat.more (width - 1) rest).length ≠ width - 1) :
    let more := Flat.more (width - 1) rest
    let expected := if more.length = rest.length then Expected.completeUtf8 else Expected.utf8
    Flat.Chars (lead :: rest)
      ⟨.error (.error (.malformed expected (lead :: more))), lead :: more⟩ := by
  intro more expected
  have wide := width_le hw
  obtain ⟨front, all, le⟩ := Flat.more_spec (width - 1) rest
  by_cases ended : more.length = rest.length
  · have same : more = rest := front.eq_of_length ended
    simp only [expected, if_pos ended, same]
    simp only [more] at same
    rw [same] at few all le
    exact .incomplete (Utf8.incomplete_iff.mpr ⟨width, hw, all, by omega⟩)
  · simp only [expected, if_neg ended]
    refine Flat.chars_malformed (fun c front => ?_) (fun cut => ?_) (by omega)
    · exact few (Flat.more_of_prefix hw front).2
    · -- all of a cut character would have been found
      obtain ⟨width', hw', all', short⟩ := Utf8.incomplete_iff.mp cut
      obtain rfl := Option.some.inj (hw.symm.trans hw')
      have found : Flat.more (width - 1) (rest ++ []) = rest :=
        Flat.more_append all' short.le (by simp)
      rw [List.append_nil] at found
      exact ended (congrArg List.length found)

/-- A read of a character is one of the four cases. -/
lemma Flat.char_chars (r : List UInt8) : Flat.Chars r (Flat.char r) := by
  cases r with
  | nil => exact .ended
  | cons lead rest =>
    cases hw : Utf8.width? lead with
    | none =>
      simp only [Flat.char, hw]
      exact Flat.chars_noLead hw
    | some width =>
      simp only [Flat.char, hw]
      by_cases enough : (Flat.more (width - 1) rest).length = width - 1
      · rw [if_pos enough]
        exact Flat.chars_decoded hw enough
      · rw [if_neg enough]
        exact Flat.chars_short hw enough

/-- When a read of a character gives what, in terms of the bytes of characters. One of the five
cases applies to any data. -/
structure Decodes (r : List UInt8) (outcome : Outcome Item) (taken : List UInt8) : Prop where
  char : ∀ c, outcome = .ok (.char c) ↔ encode [c] <+: r
  whole : ∀ c, outcome = .ok (.char c) → taken = encode [c]
  incomplete : outcome = .error (.error (.malformed Expected.completeUtf8 taken)) ↔ Incomplete r
  malformed : outcome = .error (.error (.malformed Expected.utf8 taken)) ↔
    r ≠ [] ∧ (∀ c, ¬ encode [c] <+: r) ∧ ¬ Incomplete r
  ended : outcome = .error (.error .endOfInput) ↔ r = []

/-- Each case gives the outcome that the data in front call for. -/
lemma Flat.Chars.decodes {r reading} (ch : Flat.Chars r reading) :
    Decodes r reading.outcome reading.taken := by
  have differ : Expected.completeUtf8 ≠ Expected.utf8 := by decide
  cases ch with
  | @char c rest =>
    -- a character in front rules out all the other outcomes
    have front : encode [c] <+: encode [c] ++ rest := List.prefix_append _ _
    obtain ⟨lead, tail, bytes, -⟩ := Utf8.encodeChar_shape c
    refine ⟨fun d => ?_, ?_, ?_, ?_, ?_⟩
    · simp only [Except.ok.injEq, Item.char.injEq]
      exact ⟨fun same => same ▸ front, Utf8.eq_of_prefix front⟩
    · rintro d ⟨⟩
      rfl
    · exact ⟨nofun, fun cut => absurd front (cut.not_prefix c)⟩
    · exact ⟨nofun, fun other => absurd front (other.2.1 c)⟩
    · simp [Utf8.encode_singleton, bytes]
  | incomplete cut =>
    refine ⟨fun c => ?_, nofun, ?_, ?_, ?_⟩
    · exact ⟨nofun, fun front => absurd front (cut.not_prefix c)⟩
    · exact ⟨fun _ => cut, fun _ => rfl⟩
    · simp [Error.malformed, differ, cut]
    · refine ⟨nofun, ?_⟩
      rintro rfl
      cases cut
  | malformed none uncut =>
    refine ⟨fun c => ?_, nofun, ?_, ?_, ?_⟩
    · exact ⟨nofun, fun front => absurd front (none c)⟩
    · simp [Error.malformed, differ.symm, uncut]
    · exact ⟨fun _ => ⟨by simp, none, uncut⟩, fun _ => rfl⟩
    · simp [Error.malformed]
  | ended =>
    have uncut : ¬ Incomplete [] := nofun
    refine ⟨fun c => ?_, nofun, ?_, ?_, ?_⟩
    · obtain ⟨lead, tail, bytes, -⟩ := Utf8.encodeChar_shape c
      simp [Utf8.encode_singleton, bytes]
    · simp [Error.malformed, uncut]
    · simp [Error.malformed]
    · simp

/-! ## One after another -/

/-- The request takes some bytes, but no more than a character has, for a character or for bytes
that are none. -/
structure Reply.GetsOn (reply : Reply) : Prop where
  consumed : 1 ≤ reply.consumed ∧ reply.consumed ≤ 4
  outcome : (∃ c, reply.outcome = .ok (.char c)) ∨
    ∃ expected token, reply.outcome = .error (.error (.format expected token))

/-- The replies to reads of characters one by one, each with its bytes. -/
def Reply.spelling : List Char → List Reply
  | [] => []
  | c :: cs => ⟨.ok (.char c), (encode [c]).length, encode cs⟩ :: spelling cs

/-- Continuation bytes behind a first byte do not reach into the text behind. -/
lemma within_of_continuation {lead more rest garbage cs} (some : garbage ≠ [])
    (split : garbage ++ encode cs = lead :: (more ++ rest))
    (all : ∀ b ∈ more, isContinuation b = true) :
    ∃ behind, garbage = lead :: more ++ behind ∧ rest = behind ++ encode cs := by
  cases garbage with
  | nil => exact absurd rfl some
  | cons b garbage =>
    rw [List.cons_append, List.cons_eq_cons] at split
    obtain ⟨rfl, joint⟩ := split
    have stands : more <+: garbage ++ encode cs := ⟨rest, joint.symm⟩
    obtain ⟨behind, rfl⟩ := Utf8.prefix_of_continuations all (Utf8.head?_encode cs) stands
    rw [List.append_assoc, List.append_cancel_left_eq] at joint
    exact ⟨behind, rfl, joint.symm⟩

/-- On any data a read takes a byte, and with it only continuation bytes. -/
lemma Flat.Chars.getsOn {r reading} (ch : Flat.Chars r reading) (some : r ≠ []) :
    ∃ lead more rest, reading.taken = lead :: more ∧ r = lead :: (more ++ rest) ∧
      (∀ b ∈ more, isContinuation b = true) ∧
      Reply.GetsOn ⟨reading.outcome, reading.taken.length, rest⟩ := by
  cases ch with
  | @char c rest =>
    obtain ⟨lead, tail, bytes, wide, -, all⟩ := Utf8.encodeChar_shape c
    have le := (width_le wide).2
    rw [Utf8.encode_singleton, bytes]
    exact ⟨lead, tail, rest, rfl, rfl, all, ⟨by simp, le⟩, .inl ⟨c, rfl⟩⟩
  | incomplete cut =>
    cases r with
    | nil => exact absurd rfl some
    | cons lead more =>
      obtain ⟨width, wide, all, short⟩ := Utf8.incomplete_iff.mp cut
      have le := (width_le wide).2
      refine ⟨lead, more, [], rfl, by simp, all, ⟨by simp, ?_⟩, .inr ⟨_, _, rfl⟩⟩
      simp only [List.length_cons]
      omega
  | @malformed lead more rest none uncut all short =>
    refine ⟨lead, more, rest, rfl, rfl, all, ⟨by simp, ?_⟩, .inr ⟨_, _, rfl⟩⟩
    simp only [List.length_cons]
    omega
  | ended => exact absurd rfl some

/-- Reads of characters use up the bytes in front of a text and no others. The induction is on
their number. -/
lemma Flat.session_garbage (garbage : List UInt8) (cs : List Char) :
    ∃ replies : List Reply, (∀ reply ∈ replies, reply.GetsOn) ∧
      (replies.map Reply.consumed).sum = garbage.length ∧
      ∀ m, Flat.session (List.replicate (replies.length + m) .char) (garbage ++ encode cs) =
        replies ++ Flat.session (List.replicate m .char) (encode cs) := by
  induction len : garbage.length using Nat.strong_induction_on generalizing garbage with
  | _ n ih =>
    by_cases empty : garbage = []
    · subst empty
      exact ⟨[], by simp, by simpa using len, fun m => by simp⟩
    · have ch := Flat.char_chars (garbage ++ encode cs)
      obtain ⟨lead, more, rest, taken, split, all, first⟩ := ch.getsOn (by simp [empty])
      -- the text starts with no continuation byte, so the read stays in front of it
      obtain ⟨behind, rfl, rfl⟩ := within_of_continuation empty split all
      obtain ⟨replies, each, sum, session⟩ := ih behind.length (by simp at len; omega) behind rfl
      refine ⟨_ :: replies, List.forall_mem_cons.mpr ⟨first, each⟩, ?_, fun m => ?_⟩
      · simp only [List.map_cons, List.sum_cons, sum, taken]
        rw [← len, List.length_append]
      · rw [List.length_cons, Nat.succ_add, List.replicate_succ]
        have rest : (lead :: more ++ behind ++ encode cs).drop (lead :: more).length =
            behind ++ encode cs := by
          rw [List.append_assoc, List.drop_left]
        simp only [Flat.session, Flat.answer, taken, rest, session m]
        rfl

/-- Reading the bytes of characters one at a time gives the characters, then only ends. -/
lemma Flat.session_spelling (cs : List Char) (m : Nat) :
    Flat.session (List.replicate (cs.length + m) .char) (encode cs) =
      Reply.spelling cs ++ List.replicate m ⟨.error (.error .endOfInput), 0, []⟩ := by
  induction cs with
  | nil =>
    rw [List.length_nil, Nat.zero_add]
    induction m with
    | zero => rfl
    | succ m ih =>
      rw [List.replicate_succ, List.replicate_succ]
      exact congrArg (_ :: ·) ih
  | cons c cs ih =>
    have decodes := (Flat.char_chars (encode (c :: cs))).decodes
    have split : encode (c :: cs) = encode [c] ++ encode cs := Utf8.encode_append [c] cs
    have front : encode [c] <+: encode (c :: cs) := ⟨encode cs, split.symm⟩
    have found := (decodes.char c).mpr front
    have taken := decodes.whole c found
    have rest : (encode (c :: cs)).drop (encode [c]).length = encode cs := by
      rw [split, List.drop_left]
    rw [List.length_cons, Nat.succ_add, List.replicate_succ]
    simp only [Flat.session, Flat.answer, found, taken, rest, ih]
    rfl

/-- Whatever bytes stand in front of a text, and however they are cut, reads of characters use up
those in finitely many calls and then give the text and the end. Each call answers to the bytes of
the data that it is at, by the rules of UTF-8. -/
theorem chars_resynchronize (garbage : List UInt8) (cs : List Char) (events : List Event)
    (calm : ∀ e ∈ events, e.Calm) (cut : events.flatMap Event.bytes = garbage ++ encode cs) :
    (∃ replies : List Reply, (∀ reply ∈ replies, reply.GetsOn) ∧
        (replies.map Reply.consumed).sum = garbage.length ∧
        ∀ m, session .twice (List.replicate (replies.length + (cs.length + m)) .char)
            (.ofEvents events) =
          replies ++ (Reply.spelling cs ++
            List.replicate m ⟨.error (.error .endOfInput), 0, []⟩)) ∧
      ∀ s : Source, s.Calm → ∃ taken, s.Consumes taken (Result.state (answer .twice .char s)) ∧
        Decodes s.unread (Result.outcome (answer .twice .char s)) taken := by
  refine ⟨?_, fun s calm => ?_⟩
  · obtain ⟨replies, each, sum, found⟩ := Flat.session_garbage garbage cs
    refine ⟨replies, each, sum, fun m => ?_⟩
    have calm' : (Source.ofEvents events).Calm := calm
    rw [session_calm _ calm', show (Source.ofEvents events).unread = garbage ++ encode cs from cut,
      found, Flat.session_spelling]
  · obtain ⟨passed, same⟩ := answer_calm calm .char
    have decodes := (Flat.char_chars s.unread).decodes
    have outcome : Result.outcome (answer .twice .char s) =
        (Flat.answer .char s.unread).outcome := by
      simpa using same
    refine ⟨_, passed, ?_⟩
    rw [outcome]
    exact decodes

/-- The bytes of a surrogate and a lead byte without more stand in front of a character that is
cut in two. -/
theorem chars_resynchronize_surrogate :
    let garbage : List UInt8 := [0xED, 0xA0, 0x80, 0xC3]
    let events := [Event.data 0xED [0xA0], .data 0x80 [0xC3, 0xC3], .data 0xA9 []]
    (∀ e ∈ events, e.Calm) ∧ events.flatMap Event.bytes = garbage ++ encode ['é'] ∧
      ∃ replies : List Reply, (∀ reply ∈ replies, reply.GetsOn) ∧
        (replies.map Reply.consumed).sum = 4 ∧
        session .twice (List.replicate (replies.length + 2) .char) (.ofEvents events) =
          replies ++ [⟨.ok (.char 'é'), 2, []⟩, ⟨.error (.error .endOfInput), 0, []⟩] := by
  intro garbage events
  have calm : ∀ e ∈ events, e.Calm := by
    simp only [events, List.forall_mem_cons]
    exact ⟨.data, .data, .data, by simp⟩
  obtain ⟨replies, each, sum, found⟩ := (chars_resynchronize garbage ['é'] events calm rfl).1
  exact ⟨calm, rfl, replies, each, sum, found 1⟩

end Teletype.Scanner
