import Mathlib
import Teletype.Proofs.Input.Accounting
import Teletype.Proofs.Input.Chunking

/-!
# Lines and what closes them

A line is read without what closes it: a line feed, alone or behind a carriage return, or the end of
the data. So the lines read and what closed them should make up the data (`Rejoins`). But a carriage
return at the very end of the data closes nothing, and is dropped with the last line all the same.
`lines_rejoin_iff` says that this is the one case in which data is lost.
-/

namespace Teletype.Scanner

/-! ## Flat lines -/

/-- One carriage return at the end of a line is dropped. -/
lemma withoutReturn_concat (bytes : List UInt8) : withoutReturn (bytes ++ [cr]) = bytes := by
  rw [withoutReturn, List.getLast?_concat, if_pos rfl, List.dropLast_concat]

/-- No byte of a run without line feeds stops a line. -/
lemma forall_ne_of_free {run : List UInt8} (free : lf ∉ run) : ∀ b ∈ run, (b != lf) = true := by
  intro b mem
  simpa using fun same : b = lf => free (same ▸ mem)

/-- The first line is the one in front of the first line feed. -/
lemma Flat.line_feed {run : List UInt8} (free : lf ∉ run) (rest : List UInt8) :
    Flat.line (run ++ lf :: rest) = ⟨.ok (.bytes (withoutReturn run)), run ++ [lf]⟩ := by
  have stop : ∀ b ∈ (lf :: rest).head?, (b != lf) = false := by simp
  obtain ⟨front, behind⟩ := takeWhile_append_stop (forall_ne_of_free free) stop
  have some : run ++ lf :: rest ≠ [] := by simp
  simp only [Flat.line, front, behind, if_neg some, List.take_succ_cons, List.take_zero]

/-- Without a line feed all the data is one line. -/
lemma Flat.line_last {run : List UInt8} (free : lf ∉ run) (some : run ≠ []) :
    Flat.line run = ⟨.ok (.bytes (withoutReturn run)), run⟩ := by
  have all := forall_ne_of_free free
  simp only [Flat.line, if_neg some, List.takeWhile_eq_self_iff.mpr all,
    List.dropWhile_eq_nil_iff.mpr all, List.take_nil, List.append_nil]

/-! ## Lines put together again -/

/-- What may stand between a line and the data behind it. -/
inductive Closes : List UInt8 → List UInt8 → Prop where
  | feed {rest} :
    Closes [lf] rest
  | returnFeed {rest} :
    Closes [cr, lf] rest
  | ended :
    Closes [] []

/-- The lines read, each with what closed it, are in order the data read. -/
inductive Rejoins : List UInt8 → List Reply → Prop where
  | done {unread} :
    Rejoins unread []
  | line {line closing reply replies} :
    reply.outcome = .ok (.bytes line) →
    Closes closing reply.unread →
    Rejoins reply.unread replies →
    Rejoins (line ++ closing ++ reply.unread) (reply :: replies)
  | ended {reply replies} :
    reply.outcome = .error (.error .endOfInput) →
    Rejoins reply.unread replies →
    Rejoins reply.unread (reply :: replies)

/-- Lines rejoin if the first one with its ending, and then the others, do. -/
lemma rejoins_cons_iff {data line unread : List UInt8} {n : Nat} {replies : List Reply} :
    Rejoins data (⟨.ok (.bytes line), n, unread⟩ :: replies) ↔
      (∃ closing, Closes closing unread ∧ line ++ closing ++ unread = data) ∧
        Rejoins unread replies := by
  constructor
  · intro joins
    generalize same : Reply.mk (.ok (.bytes line)) n unread = reply at joins
    cases joins with
    | line outcome closes rest =>
      subst same
      cases outcome
      exact ⟨⟨_, closes, rfl⟩, rest⟩
    | ended outcome rest =>
      subst same
      cases outcome
  · rintro ⟨⟨closing, closes, rfl⟩, rest⟩
    exact @Rejoins.line line closing ⟨_, n, unread⟩ replies rfl closes rest

/-- A run and its line feed are the line and an ending. -/
lemma closes_feed {run : List UInt8} (rest : List UInt8) :
    ∃ closing, Closes closing rest ∧ withoutReturn run ++ closing ++ rest = run ++ lf :: rest := by
  obtain ⟨ret, returns, split⟩ := withoutReturn_append run
  refine ⟨ret ++ [lf], ?_, ?_⟩
  · simp only [List.mem_cons, List.not_mem_nil, or_false] at returns
    rcases returns with rfl | rfl
    · exact .feed
    · exact .returnFeed
  · rw [← List.append_assoc, ← split, List.append_assoc, List.singleton_append]

/-- Where the data ends nothing closes a line, and no carriage return may be missing. -/
lemma closes_last_iff {run : List UInt8} :
    (∃ closing, Closes closing [] ∧ withoutReturn run ++ closing ++ [] = run) ↔
      run.getLast? ≠ some cr := by
  by_cases last : run.getLast? = some cr
  · obtain ⟨front, rfl⟩ := List.getLast?_eq_some_iff.mp last
    refine iff_of_false ?_ (not_not_intro last)
    rintro ⟨closing, closes, whole⟩
    rw [withoutReturn_concat, List.append_nil] at whole
    rw [List.append_cancel_left whole] at closes
    nomatch closes
  · refine iff_of_true ⟨[], .ended, ?_⟩ last
    rw [withoutReturn, if_neg last, List.append_nil, List.append_nil]

/-- The induction is on the lines asked for; each line feed takes one of them. -/
lemma flat_rejoins_iff (n : Nat) (data : List UInt8) :
    Rejoins data (Flat.session (List.replicate n .line) data) ↔
      ¬ (data.getLast? = some cr ∧ data.count lf < n) := by
  induction n generalizing data with
  | zero => exact iff_of_true .done (by simp)
  | succ n ih =>
    rw [List.replicate_succ, Flat.session, Flat.answer]
    by_cases feed : lf ∈ data
    · -- the line feed closes the first line, whatever stands before it; the others decide
      obtain ⟨run, rest, rfl, free⟩ := List.eq_append_cons_of_mem feed
      have behind : (run ++ lf :: rest).drop (run ++ [lf]).length = rest := by
        rw [List.append_cons run lf rest, List.drop_left]
      have count : (run ++ lf :: rest).count lf = rest.count lf + 1 := by
        rw [List.count_append, List.count_eq_zero_of_not_mem free, List.count_cons_self,
          Nat.zero_add]
      have last : (run ++ lf :: rest).getLast? = some cr ↔ rest.getLast? = some cr := by
        cases rest <;> simp [show lf ≠ cr by decide]
      rw [Flat.line_feed free, behind, rejoins_cons_iff, ih rest, count, last,
        Nat.add_lt_add_iff_right]
      exact and_iff_right (closes_feed rest)
    · have ended := ih []
      by_cases none : data = []
      · subst none
        exact iff_of_true (@Rejoins.ended ⟨_, 0, []⟩ _ rfl (ended.mpr (by simp))) (by simp)
      · -- the last line: a carriage return at its end is lost
        have count : data.count lf < n + 1 := by
          rw [List.count_eq_zero_of_not_mem feed]
          exact Nat.succ_pos n
        rw [Flat.line_last feed none, List.drop_length, rejoins_cons_iff, closes_last_iff,
          and_iff_left (ended.mpr (by simp)), and_iff_left count]

/-- However the data is cut and interrupted, the lines read and what closed them make up the data
read, unless the data ends with a carriage return and the last line is among those asked for. -/
theorem lines_rejoin_iff (data : List UInt8) (events : List Event) (calm : ∀ e ∈ events, e.Calm)
    (cut : events.flatMap Event.bytes = data) (n : Nat) :
    Rejoins data (session .twice (List.replicate n .line) (.ofEvents events)) ↔
      ¬ (data.getLast? = some cr ∧ data.count lf < n) := by
  have calm' : (Source.ofEvents events).Calm := calm
  have flat := session_calm (List.replicate n .line) calm'
  rw [flat, ← cut]
  exact flat_rejoins_iff n (events.flatMap Event.bytes)

/-- An ending cut in two, and a carriage return within the last line. -/
theorem lines_rejoin_cut :
    let events := [.data 0x61 [cr], .data lf [0x62], .data cr [0x63]]
    let data : List UInt8 := [0x61, cr, lf, 0x62, cr, 0x63]
    (∀ e ∈ events, e.Calm) ∧ events.flatMap Event.bytes = data ∧
      Rejoins data (session .twice [.line, .line, .line] (.ofEvents events)) := by
  intro events data
  have calm : ∀ e ∈ events, e.Calm := by
    simp only [events, List.forall_mem_cons]
    exact ⟨.data, .data, .data, by simp⟩
  exact ⟨calm, rfl, (lines_rejoin_iff data events calm rfl 3).mpr (by decide)⟩

/-- A carriage return is dropped that no line feed follows. -/
theorem line_loses_return :
    let data : List UInt8 := [0x61, cr]
    session .twice [.line] (.ofEvents [.data 0x61 [cr]]) = [⟨.ok (.bytes [0x61]), 2, []⟩] ∧
      ¬ Rejoins data (session .twice [.line] (.ofEvents [.data 0x61 [cr]])) := by
  intro data
  have found : session .twice [.line] (.ofEvents [.data 0x61 [cr]]) =
      [⟨.ok (.bytes [0x61]), 2, []⟩] := by cbv
  refine ⟨found, ?_⟩
  rw [found, rejoins_cons_iff]
  rintro ⟨⟨closing, closes, whole⟩, _⟩
  cases closes with
  | feed | returnFeed | ended => exact absurd whole (by decide)

end Teletype.Scanner
