import Mathlib
import Teletype.Proofs.Input.Inversion
import Teletype.Proofs.Input.Session
import Teletype.Proofs.Utf8.Decoding

/-!
# Accounting for the input

Every byte that a scanner consumes is accounted for by the outcome of a request. `Spent` lists the
bytes that may go with each outcome; `answer_accounts` reads them off the inversion of the requests.
`session_accounted` carries the account through a session over any events: the data unread before
a request are the bytes spent on it and the data unread after it.
-/

namespace Teletype.Scanner

/-- The bytes that a request may consume, by its outcome. -/
inductive Spent : Request → Outcome Item → List UInt8 → Prop where
  | token {blanks token} :
    (∀ b ∈ blanks, isBlank b = true) →
    token ≠ [] →
    (∀ b ∈ token, isBlank b = false) →
    Spent .token (.ok (.bytes token)) (blanks ++ token)
  | tokenEnded {blanks} :
    (∀ b ∈ blanks, isBlank b = true) →
    Spent .token (.error (.error .endOfInput)) blanks
  | tokenFailed {blanks run e} :
    (∀ b ∈ blanks, isBlank b = true) →
    (∀ b ∈ run, isBlank b = false) →
    e.isStream = true →
    Spent .token (.error e) (blanks ++ run)
  | line {line ending} :
    lf ∉ line →
    ending ∈ [[], [cr], [lf], [cr, lf]] →
    Spent .line (.ok (.bytes line)) (line ++ ending)
  | lineEnded :
    Spent .line (.error (.error .endOfInput)) []
  | lineFailed {run e} :
    lf ∉ run →
    e.isStream = true →
    Spent .line (.error e) run
  | char {c} :
    Spent .char (.ok (.char c)) (Utf8.encode [c])
  | charEnded :
    Spent .char (.error (.error .endOfInput)) []
  | charMalformed {expected lead more} :
    expected = Expected.utf8 ∨ expected = Expected.completeUtf8 →
    more.length ≤ 3 →
    (∀ b ∈ more, Utf8.isContinuation b = true) →
    Spent .char (.error (.error (.malformed expected (lead :: more)))) (lead :: more)
  | charFailed {e} :
    e.isStream = true →
    Spent .char (.error e) []
  | charCut {lead width more e} :
    Utf8.width? lead = some width →
    more.length + 1 < width →
    (∀ b ∈ more, Utf8.isContinuation b = true) →
    e.isStream = true →
    Spent .char (.error e) (lead :: more)

/-- The account of a result: the bytes consumed since `s` may go with its outcome. -/
def Accounts (q : Request) (s : Source) {α : Type} (item : α → Item)
    (result : EStateM.Result Failure Source α) : Prop :=
  ∃ bs, s.Consumes bs (Result.state result) ∧ Spent q ((Result.outcome result).map item) bs

/-- Reading a token accounts for the bytes it consumes. -/
lemma token_accounts (refill : Refill) (s : Source) :
    Accounts .token s Item.bytes (token refill s) := by
  have tk := token_tokens refill s
  generalize token refill s = result at tk
  cases tk with
  | token first second some =>
    obtain ⟨passed, blank⟩ := first.consumes
    obtain ⟨passed', all⟩ := second.consumes
    refine ⟨_, passed.trans passed', .token blank some ?_⟩
    intro b hb
    simpa using all b hb
  | ended first =>
    obtain ⟨passed, blank⟩ := first.consumes
    exact ⟨_, passed, .tokenEnded blank⟩
  | @before e t first =>
    obtain ⟨blanks, passed, blank, failure⟩ := first.consumes_error
    refine ⟨blanks, passed, ?_⟩
    have spent : Spent .token (.error e) (blanks ++ []) := .tokenFailed blank (by simp) failure
    rwa [List.append_nil] at spent
  | inside first second =>
    obtain ⟨passed, blank⟩ := first.consumes
    obtain ⟨run, passed', all, failure⟩ := second.consumes_error
    refine ⟨_, passed.trans passed', .tokenFailed blank ?_ failure⟩
    intro b hb
    simpa using all b hb

/-- A line and one carriage return at most make up the run of bytes it was read from. -/
lemma withoutReturn_append (run : List UInt8) :
    ∃ ret ∈ [[], [cr]], run = withoutReturn run ++ ret := by
  by_cases last : run.getLast? = some cr
  · refine ⟨[cr], by simp, ?_⟩
    rw [withoutReturn, if_pos last]
    exact (List.dropLast_append_getLast? cr last).symm
  · refine ⟨[], by simp, ?_⟩
    rw [withoutReturn, if_neg last, List.append_nil]

/-- A run of bytes without a line feed, and a line feed or not, pay for a line. -/
lemma spent_line {run feed : List UInt8} (free : lf ∉ run) (ends : feed ∈ [[], [lf]]) :
    Spent .line (.ok (.bytes (withoutReturn run))) (run ++ feed) := by
  obtain ⟨ret, returns, split⟩ := withoutReturn_append run
  have spent : Spent .line (.ok (.bytes (withoutReturn run)))
      (withoutReturn run ++ (ret ++ feed)) := by
    apply Spent.line
    · intro mem
      apply free
      rw [split]
      exact List.mem_append_left _ mem
    · simp only [List.mem_cons, List.not_mem_nil, or_false] at returns ends
      rcases returns with rfl | rfl <;> rcases ends with rfl | rfl <;> simp
  rwa [← List.append_assoc, ← split] at spent

/-- Reading a line accounts for the bytes it consumes. -/
lemma line_accounts (refill : Refill) (s : Source) :
    Accounts .line s Item.bytes (line refill s) := by
  have ln := line_lines refill s
  generalize line refill s = result at ln
  have free : ∀ {run : List UInt8}, (∀ b ∈ run, (b != lf) = true) → lf ∉ run := by
    intro run all mem
    exact absurd (all lf mem) (by simp)
  cases ln with
  | @terminated b t run u first second =>
    obtain ⟨passed, all⟩ := second.consumes
    cases second with
    | @stopped _ c bs _ _ _ buffer stop =>
      obtain rfl : c = lf := by simpa using stop
      have ended : u.Consumes [lf] (u.advance 1) := .advance buffer
      exact ⟨_, first.consumes.trans (passed.trans ended), spent_line (free all) (by simp)⟩
  | @last b t run u first second =>
    obtain ⟨passed, all⟩ := second.consumes
    have spent := spent_line (free all) (List.mem_cons_self (l := [[lf]]))
    rw [List.append_nil] at spent
    exact ⟨_, first.consumes.trans passed, spent⟩
  | ended first => exact ⟨_, first.consumes_none, .lineEnded⟩
  | before first =>
    obtain ⟨passed, failure⟩ := first.consumes_error
    exact ⟨_, passed, .lineFailed (by simp) failure⟩
  | inside first second =>
    obtain ⟨run, passed, all, failure⟩ := second.consumes_error
    exact ⟨_, first.consumes.trans passed, .lineFailed (free all) failure⟩

/-- The bytes of a lead byte and all its followers are those of a character, if of any. -/
lemma eq_encode_of_width {lead : UInt8} {more : List UInt8} {width c cs}
    (hw : Utf8.width? lead = some width) (len : more.length = width - 1)
    (decoded : Utf8.decode? (lead :: more) = some (c :: cs)) :
    lead :: more = Utf8.encode [c] := by
  have bytes := Utf8.decode?_eq_some_iff.mp decoded
  change lead :: more = String.utf8EncodeChar c ++ Utf8.encode cs at bytes
  change lead :: more = String.utf8EncodeChar c ++ []
  obtain ⟨lead', followers, shape, wide, _⟩ := Utf8.encodeChar_shape c
  rw [shape] at bytes ⊢
  rw [List.cons_append] at bytes
  obtain ⟨rfl, rest⟩ := List.cons.inj bytes
  obtain rfl := Option.some.inj (wide.symm.trans hw)
  have all := congrArg List.length rest
  rw [List.length_append, len, Nat.add_sub_cancel] at all
  have none : Utf8.encode cs = [] := List.length_eq_zero_iff.mp (by omega)
  rw [rest, none]
  rfl

/-- A first byte announces a character of one to four bytes. -/
lemma width_le {lead : UInt8} {width} (hw : Utf8.width? lead = some width) :
    1 ≤ width ∧ width ≤ 4 := by
  unfold Utf8.width? at hw
  obtain ⟨ranges, found, rfl⟩ := Option.map_eq_some_iff.mp hw
  cases Utf8.followers_eq_some_iff.mp found <;> simp

/-- Reading a character accounts for the bytes it consumes. -/
lemma char_accounts (refill : Refill) (s : Source) :
    Accounts .char s Item.char (char refill s) := by
  have ch := char_chars refill s
  generalize char refill s = result at ch
  cases ch with
  | @char lead t width bytes u c cs first hw second decoded =>
    have led := first.led
    cases second with
    | @whole more _ passed all len =>
      have spent : Spent .char (.ok (.char c)) (Utf8.encode [c]) := .char
      rw [← eq_encode_of_width hw len decoded] at spent
      exact ⟨_, led.trans passed, spent⟩
  | @undecodable lead t width bytes u first hw second other =>
    -- as many bytes as the lead byte calls for, but overlong, a surrogate or beyond the last plane
    have led := first.led
    have wide := width_le hw
    cases second with
    | @whole more _ passed all len =>
      have short : more.length ≤ 3 := by omega
      exact ⟨_, led.trans passed, .charMalformed (.inl rfl) short all⟩
  | @inside lead t width e u first hw second =>
    have led := first.led
    have wide := width_le hw
    cases second with
    | @broken more _ _ _ passed all len _ _ =>
      have short : more.length ≤ 3 := by omega
      exact ⟨_, led.trans passed, .charMalformed (.inl rfl) short all⟩
    | @ended more _ _ passed all len last =>
      have short : more.length ≤ 3 := by omega
      exact ⟨_, led.trans (consumes_ended passed last), .charMalformed (.inr rfl) short all⟩
    | @failed more _ _ _ passed all len last =>
      obtain ⟨passed, failure⟩ := consumes_failed passed last
      have short : more.length + 1 < width := by omega
      exact ⟨_, led.trans passed, .charCut hw short all failure⟩
  | noLead first hw =>
    exact ⟨_, first.led, .charMalformed (.inl rfl) (by simp) (by simp)⟩
  | ended first => exact ⟨_, first.consumes_none, .charEnded⟩
  | before first =>
    obtain ⟨passed, failure⟩ := first.consumes_error
    exact ⟨_, passed, .charFailed failure⟩

/-- Every request accounts for the bytes it consumes. -/
lemma answer_accounts (refill : Refill) (q : Request) (s : Source) :
    Accounts q s id (answer refill q s) := by
  cases q with
  | token => simpa [Accounts, answer] using token_accounts refill s
  | line => simpa [Accounts, answer] using line_accounts refill s
  | char => simpa [Accounts, answer] using char_accounts refill s

/-- The data unread before a session is what its requests spend, in order, and what the last of
them leaves. -/
inductive Accounted : List UInt8 → List Request → List Reply → Prop where
  | done {unread} :
    Accounted unread [] []
  | next {bs q qs reply replies} :
    reply.consumed = bs.length →
    Spent q reply.outcome bs →
    Accounted reply.unread qs replies →
    Accounted (bs ++ reply.unread) (q :: qs) (reply :: replies)

/-- A session accounts for all it consumes, whatever source it starts from. -/
lemma session_accounted_from (refill : Refill) (qs : List Request) (s : Source) :
    Accounted s.unread qs (session refill qs s) := by
  induction qs generalizing s with
  | nil => exact .done
  | cons q qs ih =>
    obtain ⟨bs, passed, spent⟩ := answer_accounts refill q s
    rw [passed.unread]
    have count := Reply.consumed_of passed
    have paid : Spent q (Reply.of s (answer refill q s)).outcome bs := by
      show Spent q (Result.outcome (answer refill q s)) bs
      simpa using spent
    exact .next count paid (ih (Result.state (answer refill q s)))

/-- No byte is skipped, repeated or moved by any session over any events: whatever a request ends
with, its outcome accounts for the bytes between the data before it and the data after it. -/
theorem session_accounted (events : List Event) (qs : List Request) :
    Accounted (events.flatMap Event.bytes) qs (session .twice qs (.ofEvents events)) :=
  session_accounted_from .twice qs (.ofEvents events)

end Teletype.Scanner
