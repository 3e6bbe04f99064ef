import Mathlib
import Teletype.Input.Scanner
import Teletype.Proofs.Runs

/-!
# Scanner inversion

What a scanner can do, as judgments with one rule for each exit. `Spans`, `Peeks` and `Continues`
judge the loops and the look at the next byte; each rule names the bytes consumed on the way and,
where a refill ended it, that refill. `Tokens`, `Lines` and `Chars` judge the requests by the
judgments of their parts. The lemmas `span_spans`, `token_tokens` and so on say that the scanner
follows the rules, so that every property of its runs can be read off them.
-/

namespace Teletype

/-- A successful answer consumes nothing and shows the buffer it leaves. -/
lemma Refill.ask_ok {refill : Refill} {s t piece} (asked : refill.ask s = .ok piece t) :
    s.Consumes [] t ∧ t.buffer = piece := by
  have shown := refill.shows s
  rw [asked] at shown
  exact ⟨shown.1, shown.2.1⟩

/-- A failed answer consumes nothing, and it is the stream that failed. -/
lemma Refill.ask_error {refill : Refill} {s t e} (asked : refill.ask s = .error e t) :
    s.Consumes [] t ∧ e.isStream = true := by
  have shown := refill.shows s
  rw [asked] at shown
  exact ⟨shown.1, shown.2.2⟩

/-- What is left of a piece is shown again. -/
lemma Refill.ask_of_buffer (refill : Refill) {s : Source} (left : s.buffer ≠ []) :
    refill.ask s = .ok s.buffer s := by
  have shown := refill.shows s
  cases asked : refill.ask s with
  | error e t =>
    rw [asked] at shown
    exact absurd shown.2.1 left
  | ok piece t =>
    rw [asked] at shown
    obtain ⟨_, buffer, same⟩ := shown
    cases same left
    rw [buffer]

namespace Scanner

/-! ## Runs of bytes -/

/-- What a run over bytes with `p` can do: it is stopped by another byte, ends or fails. -/
inductive Spans (refill : Refill) (p : UInt8 → Bool) (s : Source) :
    EStateM.Result Failure Source (List UInt8 × Bool) → Prop where
  | stopped {run b bs t} :
    s.Consumes run t →
    (∀ x ∈ run, p x = true) →
    t.buffer = b :: bs →
    p b = false →
    Spans refill p s (.ok (run, true) t)
  | ended {run t u} :
    s.Consumes run t →
    (∀ x ∈ run, p x = true) →
    refill.ask t = .ok [] u →
    Spans refill p s (.ok (run, false) u)
  | failed {run e t u} :
    s.Consumes run t →
    (∀ x ∈ run, p x = true) →
    refill.ask t = .error e u →
    Spans refill p s (.error e u)

/-- Every `span` has one of the results of `Spans`. The induction follows the refills. -/
lemma span_spans (refill : Refill) (p : UInt8 → Bool) (s : Source) :
    Spans refill p s (span refill p s) := by
  fun_induction span refill p s with
  | case1 s e t asked => exact .failed (.refl s) (by simp) asked
  | case2 s t asked => exact .ended (.refl s) (by simp) asked
  | case3 s b bs t asked run c cs rest =>
    obtain ⟨passed, buffer⟩ := Refill.ask_ok asked
    obtain ⟨split, stop⟩ := takeWhile_of_dropWhile_cons rest
    have front := buffer.trans split
    exact .stopped (passed.trans (.advance front)) (fun _ => List.mem_takeWhile_imp)
      (Source.buffer_advance front) stop
  | case4 s b bs t asked run rest more stopped u found ih =>
    -- the whole piece belongs to the run, which goes on in the next one
    obtain ⟨passed, buffer⟩ := Refill.ask_ok asked
    have piece := passed.trans (.advance (buffer.trans (List.append_nil _).symm))
    have all : ∀ x ∈ b :: bs, p x = true := List.dropWhile_eq_nil_iff.mp rest
    rw [show run = b :: bs from takeWhile_of_dropWhile_nil rest]
    rw [found] at ih
    cases ih with
    | stopped more all' buffer' stop =>
      exact .stopped (piece.trans more) (List.forall_mem_append.mpr ⟨all, all'⟩) buffer' stop
    | ended more all' last =>
      exact .ended (piece.trans more) (List.forall_mem_append.mpr ⟨all, all'⟩) last
  | case5 s b bs t asked rest e u found ih =>
    obtain ⟨passed, buffer⟩ := Refill.ask_ok asked
    have piece := passed.trans (.advance (buffer.trans (List.append_nil _).symm))
    have all : ∀ x ∈ b :: bs, p x = true := List.dropWhile_eq_nil_iff.mp rest
    rw [found] at ih
    cases ih with
    | failed more all' last =>
      exact .failed (piece.trans more) (List.forall_mem_append.mpr ⟨all, all'⟩) last

/-- One step of a `span`, without the equation that its termination needs. -/
lemma span_eq (refill : Refill) (p : UInt8 → Bool) (s : Source) :
    span refill p s =
      match refill.ask s with
      | .error e t => .error e t
      | .ok [] t => .ok ([], false) t
      | .ok (b :: bs) t =>
        let run := (b :: bs).takeWhile p
        match (b :: bs).dropWhile p with
        | _ :: _ => .ok (run, true) (t.advance run.length)
        | [] =>
          match span refill p (t.advance (b :: bs).length) with
          | .ok (more, stopped) u => .ok (run ++ more, stopped) u
          | .error e u => .error e u := by
  rw [span]
  split
  next shown => exact shown ▸ rfl
  next shown => exact shown ▸ rfl
  next shown => exact shown ▸ rfl

/-- A run fails where its first request fails. -/
lemma span_of_error {refill : Refill} {s t e} (asked : refill.ask s = .error e t)
    (p : UInt8 → Bool) : span refill p s = .error e t := by
  rw [span_eq, asked]

/-- A run is empty where the data end at once. -/
lemma span_of_nil {refill : Refill} {s t} (asked : refill.ask s = .ok [] t) (p : UInt8 → Bool) :
    span refill p s = .ok ([], false) t := by
  rw [span_eq, asked]

/-- A `span` takes at least the byte that it starts at, if that byte has `p`. -/
lemma span_ne_nil {refill p s b bs run stopped t} (buffer : s.buffer = b :: bs) (hb : p b = true)
    (found : span refill p s = .ok (run, stopped) t) : run ≠ [] := by
  have asked := refill.ask_of_buffer (s := s) (by simp [buffer])
  have front : (b :: bs).takeWhile p = b :: bs.takeWhile p := List.takeWhile_cons_of_pos hb
  rw [span_eq, asked, buffer] at found
  dsimp only at found
  split at found
  · cases found
    simp [front]
  · split at found
    · cases found
      simp [front]
    · cases found

/-! ## Single bytes -/

/-- What a look at the next byte can do: it shows the byte, meets the end or fails. -/
inductive Peeks (refill : Refill) (s : Source) :
    EStateM.Result Failure Source (Option UInt8) → Prop where
  | byte {b bs t} :
    s.Consumes [] t →
    t.buffer = [b] ++ bs →
    Peeks refill s (.ok (some b) t)
  | ended {t} :
    refill.ask s = .ok [] t →
    Peeks refill s (.ok none t)
  | failed {e t} :
    refill.ask s = .error e t →
    Peeks refill s (.error e t)

/-- A look at the next byte fails where the request fails. -/
lemma peek_of_error {refill : Refill} {s t e} (asked : refill.ask s = .error e t) :
    peek refill s = .error e t := by
  simp only [peek, bind, EStateM.bind, asked]

/-- A look at the next byte shows the first byte of what the request gives. -/
lemma peek_of_ok {refill : Refill} {s t piece} (asked : refill.ask s = .ok piece t) :
    peek refill s = .ok piece.head? t := by
  simp only [peek, bind, EStateM.bind, asked, pure, EStateM.pure]

/-- Every look at the next byte is one of its cases. -/
lemma peek_peeks (refill : Refill) (s : Source) : Peeks refill s (peek refill s) := by
  cases asked : refill.ask s with
  | error e t => exact peek_of_error asked ▸ .failed asked
  | ok piece t =>
    rw [peek_of_ok asked]
    obtain ⟨passed, buffer⟩ := Refill.ask_ok asked
    cases piece with
    | nil => exact .ended asked
    | cons b bs => exact .byte passed buffer

/-- What reading `n` continuation bytes behind `bytes` can do: they are all there, another byte or
the end comes first, or the stream fails. -/
inductive Continues (refill : Refill) (n : Nat) (bytes : List UInt8) (s : Source) :
    EStateM.Result Failure Source (List UInt8) → Prop where
  | whole {more t} :
    s.Consumes more t →
    (∀ x ∈ more, Utf8.isContinuation x = true) →
    more.length = n →
    Continues refill n bytes s (.ok (bytes ++ more) t)
  | broken {more b bs t} :
    s.Consumes more t →
    (∀ x ∈ more, Utf8.isContinuation x = true) →
    more.length < n →
    t.buffer = b :: bs →
    Utf8.isContinuation b = false →
    Continues refill n bytes s (.error (.error (.malformed Expected.utf8 (bytes ++ more))) t)
  | ended {more t u} :
    s.Consumes more t →
    (∀ x ∈ more, Utf8.isContinuation x = true) →
    more.length < n →
    refill.ask t = .ok [] u →
    Continues refill n bytes s
      (.error (.error (.malformed Expected.completeUtf8 (bytes ++ more))) u)
  | failed {more e t u} :
    s.Consumes more t →
    (∀ x ∈ more, Utf8.isContinuation x = true) →
    more.length < n →
    refill.ask t = .error e u →
    Continues refill n bytes s (.error e u)

/-- One continuation byte more in front of the others. -/
lemma Continues.cons {refill n bytes s b t result} (step : s.Consumes [b] t)
    (hb : Utf8.isContinuation b = true) (rest : Continues refill n (bytes ++ [b]) t result) :
    Continues refill (n + 1) bytes s result := by
  have grow : ∀ {more}, (∀ x ∈ more, Utf8.isContinuation x = true) →
      ∀ x ∈ b :: more, Utf8.isContinuation x = true := fun all =>
    List.forall_mem_cons.mpr ⟨hb, all⟩
  cases rest with
  | whole more all len =>
    rw [List.append_assoc]
    exact .whole (step.trans more) (grow all) (congrArg Nat.succ len)
  | broken more all len buffer stop =>
    rw [List.append_assoc]
    exact .broken (step.trans more) (grow all) (Nat.succ_lt_succ len) buffer stop
  | ended more all len last =>
    rw [List.append_assoc]
    exact .ended (step.trans more) (grow all) (Nat.succ_lt_succ len) last
  | failed more all len last =>
    exact .failed (step.trans more) (grow all) (Nat.succ_lt_succ len) last

/-- Every run of continuation bytes has one of the results of `Continues`. The induction follows
the bytes still expected. -/
lemma continuations_continues (refill : Refill) (n : Nat) (bytes : List UInt8) (s : Source) :
    Continues refill n bytes s (continuations refill n bytes s) := by
  induction n generalizing bytes s with
  | zero =>
    have found : continuations refill 0 bytes s = .ok (bytes ++ []) s := by
      rw [List.append_nil]
      rfl
    exact found ▸ .whole (.refl s) (by simp) rfl
  | succ n ih =>
    have peeked := peek_peeks refill s
    unfold continuations
    simp only [bind, EStateM.bind]
    generalize peek refill s = result at peeked
    cases peeked with
    | failed asked => exact .failed (.refl s) (by simp) (by simp) asked
    | ended asked =>
      have none : Continues refill (n + 1) bytes s _ :=
        .ended (.refl s) (by simp) (Nat.succ_pos n) asked
      rwa [List.append_nil] at none
    | @byte b bs t passed buffer =>
      by_cases hb : Utf8.isContinuation b = true
      · simp only [hb, if_true]
        exact .cons (passed.trans (.advance buffer)) hb (ih (bytes ++ [b]) (t.advance 1))
      · simp only [hb]
        -- the byte is only looked at and stays unread
        have stop : Utf8.isContinuation b = false := Bool.eq_false_iff.mpr hb
        have none : Continues refill (n + 1) bytes s _ :=
          .broken passed (by simp) (Nat.succ_pos n) buffer stop
        rwa [List.append_nil] at none

/-! ## Requests -/

/-- What reading a token can do, by the run of blanks and the run of the token. -/
inductive Tokens (refill : Refill) (s : Source) :
    EStateM.Result Failure Source (List UInt8) → Prop where
  | token {blanks t run stopped u} :
    Spans refill isBlank s (.ok (blanks, true) t) →
    Spans refill (fun b => !isBlank b) t (.ok (run, stopped) u) →
    run ≠ [] →
    Tokens refill s (.ok run u)
  | ended {blanks t} :
    Spans refill isBlank s (.ok (blanks, false) t) →
    Tokens refill s (.error (.error .endOfInput) t)
  | before {e t} :
    Spans refill isBlank s (.error e t) →
    Tokens refill s (.error e t)
  | inside {blanks t e u} :
    Spans refill isBlank s (.ok (blanks, true) t) →
    Spans refill (fun b => !isBlank b) t (.error e u) →
    Tokens refill s (.error e u)

/-- Every read of a token is one of its cases. -/
lemma token_tokens (refill : Refill) (s : Source) : Tokens refill s (token refill s) := by
  have first := span_spans refill isBlank s
  unfold token
  simp only [bind, EStateM.bind]
  generalize span refill isBlank s = result at first
  rcases result with ⟨⟨blanks, _ | _⟩, t⟩ | ⟨e, t⟩
  · exact .ended first
  · -- a blank run is stopped by a byte that starts the token
    have second := span_spans refill (fun b => !isBlank b) t
    simp only [Bool.not_true, Bool.false_eq_true, if_false, EStateM.bind]
    cases found : span refill (fun b => !isBlank b) t with
    | error e u =>
      rw [found] at second
      exact .inside first second
    | ok out u =>
      rw [found] at second
      cases first with
      | stopped passed all buffer stop =>
        have some := span_ne_nil buffer (by simp [stop]) found
        exact .token (.stopped passed all buffer stop) second some
  · exact .before first

/-- What reading a line can do, by a look at the next byte and the run up to the line feed. -/
inductive Lines (refill : Refill) (s : Source) :
    EStateM.Result Failure Source (List UInt8) → Prop where
  | terminated {b t run u} :
    Peeks refill s (.ok (some b) t) →
    Spans refill (fun b => b != 0x0A) t (.ok (run, true) u) →
    Lines refill s (.ok (withoutReturn run) (u.advance 1))
  | last {b t run u} :
    Peeks refill s (.ok (some b) t) →
    Spans refill (fun b => b != 0x0A) t (.ok (run, false) u) →
    Lines refill s (.ok (withoutReturn run) u)
  | ended {t} :
    Peeks refill s (.ok none t) →
    Lines refill s (.error (.error .endOfInput) t)
  | before {e t} :
    Peeks refill s (.error e t) →
    Lines refill s (.error e t)
  | inside {b t e u} :
    Peeks refill s (.ok (some b) t) →
    Spans refill (fun b => b != 0x0A) t (.error e u) →
    Lines refill s (.error e u)

/-- Every read of a line is one of its cases. -/
lemma line_lines (refill : Refill) (s : Source) : Lines refill s (line refill s) := by
  have first := peek_peeks refill s
  unfold line
  simp only [bind, EStateM.bind]
  generalize peek refill s = result at first
  rcases result with ⟨_ | b, t⟩ | ⟨e, t⟩
  · exact .ended first
  · have second := span_spans refill (fun b => b != 0x0A) t
    simp only [Option.isNone_some, Bool.false_eq_true, if_false, EStateM.bind]
    generalize span refill (fun b => b != 0x0A) t = result at second
    rcases result with ⟨⟨run, _ | _⟩, u⟩ | ⟨e, u⟩
    · exact .last first second
    · exact .terminated first second
    · exact .inside first second
  · exact .before first

/-- What reading a character can do, by its first byte and its continuation bytes. -/
inductive Chars (refill : Refill) (s : Source) : EStateM.Result Failure Source Char → Prop where
  | char {lead t width bytes u c cs} :
    Peeks refill s (.ok (some lead) t) →
    Utf8.width? lead = some width →
    Continues refill (width - 1) [lead] (t.advance 1) (.ok bytes u) →
    Utf8.decode? bytes = some (c :: cs) →
    Chars refill s (.ok c u)
  | undecodable {lead t width bytes u} :
    Peeks refill s (.ok (some lead) t) →
    Utf8.width? lead = some width →
    Continues refill (width - 1) [lead] (t.advance 1) (.ok bytes u) →
    (∀ c cs, Utf8.decode? bytes ≠ some (c :: cs)) →
    Chars refill s (.error (.error (.malformed Expected.utf8 bytes)) u)
  | inside {lead t width e u} :
    Peeks refill s (.ok (some lead) t) →
    Utf8.width? lead = some width →
    Continues refill (width - 1) [lead] (t.advance 1) (.error e u) →
    Chars refill s (.error e u)
  | noLead {lead t} :
    Peeks refill s (.ok (some lead) t) →
    Utf8.width? lead = none →
    Chars refill s (.error (.error (.malformed Expected.utf8 [lead])) (t.advance 1))
  | ended {t} :
    Peeks refill s (.ok none t) →
    Chars refill s (.error (.error .endOfInput) t)
  | before {e t} :
    Peeks refill s (.error e t) →
    Chars refill s (.error e t)

/-- Every read of a character is one of its cases. -/
lemma char_chars (refill : Refill) (s : Source) : Chars refill s (char refill s) := by
  have first := peek_peeks refill s
  unfold char
  simp only [bind, EStateM.bind]
  generalize peek refill s = result at first
  rcases result with ⟨_ | lead, t⟩ | ⟨e, t⟩
  · exact .ended first
  · cases hw : Utf8.width? lead with
    | none =>
      simp only [hw]
      exact .noLead first hw
    | some width =>
      have second := continuations_continues refill (width - 1) [lead] (t.advance 1)
      simp only [hw]
      change Chars refill s (EStateM.bind (continuations refill (width - 1) [lead]) _ (t.advance 1))
      simp only [EStateM.bind]
      generalize continuations refill (width - 1) [lead] (t.advance 1) = result at second ⊢
      cases result with
      | error e u => exact .inside first hw second
      | ok bytes u =>
        rcases decoded : Utf8.decode? bytes with _ | _ | ⟨c, cs⟩
        all_goals simp only [decoded]
        · exact .undecodable first hw second (by simp [decoded])
        · exact .undecodable first hw second (by simp [decoded])
        · exact .char first hw second decoded
  · exact .before first

/-! ## Consumption -/

/-- A failing request consumes nothing beyond what was consumed before it. -/
lemma consumes_failed {refill : Refill} {s t u : Source} {bs e}
    (first : s.Consumes bs t) (last : refill.ask t = .error e u) :
    s.Consumes bs u ∧ e.isStream = true := by
  obtain ⟨passed, failure⟩ := Refill.ask_error last
  have all := first.trans passed
  rw [List.append_nil] at all
  exact ⟨all, failure⟩

/-- A request at the end consumes nothing beyond what was consumed before it. -/
lemma consumes_ended {refill : Refill} {s t u : Source} {bs}
    (first : s.Consumes bs t) (last : refill.ask t = .ok [] u) : s.Consumes bs u := by
  have all := first.trans (Refill.ask_ok last).1
  rwa [List.append_nil] at all

/-- The bytes of a `span` have `p`, and it fails only with the stream. -/
lemma Spans.consumes {refill p s run stopped t}
    (sp : Spans refill p s (.ok (run, stopped) t)) :
    s.Consumes run t ∧ ∀ b ∈ run, p b = true := by
  cases sp with
  | stopped first all => exact ⟨first, all⟩
  | ended first all last => exact ⟨consumes_ended first last, all⟩

/-- A failing run consumes the bytes it passed, and it is the stream that fails. -/
lemma Spans.consumes_error {refill p s e t} (sp : Spans refill p s (.error e t)) :
    ∃ run, s.Consumes run t ∧ (∀ b ∈ run, p b = true) ∧ e.isStream = true := by
  cases sp with
  | failed first all last =>
    obtain ⟨passed, failure⟩ := consumes_failed first last
    exact ⟨_, passed, all, failure⟩

/-- A look at the next byte consumes nothing. -/
lemma Peeks.consumes {refill s b t} (pk : Peeks refill s (.ok (some b) t)) : s.Consumes [] t := by
  cases pk with
  | byte passed buffer => exact passed

/-- The byte looked at is the next one to consume. -/
lemma Peeks.led {refill s b t} (pk : Peeks refill s (.ok (some b) t)) :
    s.Consumes [b] (t.advance 1) := by
  cases pk with
  | byte passed buffer => exact passed.trans (.advance buffer)

/-- Meeting the end consumes nothing. -/
lemma Peeks.consumes_none {refill s t} (pk : Peeks refill s (.ok none t)) : s.Consumes [] t := by
  cases pk with
  | ended last => exact consumes_ended (.refl s) last

/-- A failing look at the next byte consumes nothing, and it is the stream that fails. -/
lemma Peeks.consumes_error {refill s e t} (pk : Peeks refill s (.error e t)) :
    s.Consumes [] t ∧ e.isStream = true := by
  cases pk with
  | failed last => exact consumes_failed (.refl s) last

end Scanner

end Teletype
