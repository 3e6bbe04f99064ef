import Mathlib
import Teletype.Proofs.Input.Uninterrupted

/-!
# Where ends are heeded

Asking twice is meant to skip interruptions and to take what comes first otherwise, as
`Refill.uninterrupted` does. But behind an end of the data it goes on, and takes what comes then,
be it data or an interruption. `session_uninterrupted_iff` says on which events this cannot be
noticed. Both ways of asking are compared with asking once, on the events that each makes of the
stream: `normalize` and `quiet`.
-/

namespace Teletype

/-- What skipping interruptions makes of events. -/
def quiet (events : List Event) : List Event :=
  events.filter fun e => !e.isInterruption

/-- The source without the interruptions to come. -/
def Source.quiet (s : Source) : Source :=
  { s with pending := Teletype.quiet s.pending }

/-- An interruption is left out. -/
lemma quiet_cons_interruption {e : Event} (h : e.isInterruption = true) (rest : List Event) :
    quiet (e :: rest) = quiet rest :=
  List.filter_cons_of_neg (by simp [h])

/-- Any other event stays. -/
lemma quiet_cons_other {e : Event} (h : ¬ e.isInterruption = true) (rest : List Event) :
    quiet (e :: rest) = e :: quiet rest :=
  List.filter_cons_of_pos (by simp [h])

/-- Interruptions carry no data. -/
lemma quiet_bytes (events : List Event) :
    (quiet events).flatMap Event.bytes = events.flatMap Event.bytes := by
  induction events with
  | nil => rfl
  | cons e rest ih =>
    by_cases h : e.isInterruption = true
    · rw [quiet_cons_interruption h, List.flatMap_cons, e.bytes_of_isInterruption h, ih]
      rfl
    · rw [quiet_cons_other h, List.flatMap_cons, List.flatMap_cons, ih]

/-- Asking once on the quiet stream is skipping interruptions on the original one. -/
lemma quiet_ask (s : Source) :
    Refill.once.ask s.quiet = Result.mapState Source.quiet (Refill.uninterrupted.ask s) := by
  by_cases left : s.buffer = []
  case neg =>
    have left' : s.quiet.buffer ≠ [] := left
    rw [Refill.ask_of_buffer _ left, Refill.ask_of_buffer _ left']
    rfl
  case pos =>
    obtain ⟨buffer, pending, n⟩ := s
    cases left
    show Source.request ⟨[], quiet pending, n⟩ =
      Result.mapState Source.quiet (Refill.askUninterrupted ⟨[], pending, n⟩)
    induction pending with
    | nil => rfl
    | cons e rest ih =>
      by_cases h : e.isInterruption = true
      · rw [quiet_cons_interruption h, Refill.askUninterrupted_interruption h]
        exact ih
      · rw [quiet_cons_other h, Refill.askUninterrupted_other h]
        cases e <;> rfl

/-- A scanner that skips interruptions cannot tell a source from its quiet one. -/
lemma quiet_carries : Carries Source.quiet .uninterrupted .once where
  ask := quiet_ask
  advance _ _ := rfl
  unread s := congrArg (s.buffer ++ ·) (quiet_bytes s.pending)
  consumed _ := rfl

/-! ## Ends at the end -/

/-- The events up to the last one that is not an end of the data. -/
def trimEnds : List Event → List Event
  | [] => []
  | e :: rest => if e = .ended ∧ trimEnds rest = [] then [] else e :: trimEnds rest

/-- The source without the ends behind its last other event. -/
def Source.trimmed (s : Source) : Source :=
  { s with pending := trimEnds s.pending }

/-- Nothing is trimmed from an event that is not an end. -/
lemma trimEnds_cons {e : Event} (other : e ≠ .ended) (rest : List Event) :
    trimEnds (e :: rest) = e :: trimEnds rest :=
  if_neg fun last => other last.1

/-- Of ends alone nothing is left. -/
lemma trimEnds_ends {events : List Event} (ends : ∀ e ∈ events, e = .ended) :
    trimEnds events = [] := by
  induction events with
  | nil => rfl
  | cons e rest ih =>
    obtain ⟨first, more⟩ := List.forall_mem_cons.mp ends
    exact if_pos ⟨first, ih more⟩

/-- Ends carry no data. -/
lemma trimEnds_bytes (events : List Event) :
    (trimEnds events).flatMap Event.bytes = events.flatMap Event.bytes := by
  induction events with
  | nil => rfl
  | cons e rest ih =>
    rw [trimEnds]
    split_ifs with last
    · obtain ⟨rfl, none⟩ := last
      rw [none] at ih
      exact ih
    · rw [List.flatMap_cons, List.flatMap_cons, ih]

/-- The end of the stream shows as an end of the data, as often as it is asked for. -/
lemma trimmed_ask (s : Source) :
    Refill.once.ask s.trimmed = Result.mapState Source.trimmed (Refill.once.ask s) := by
  by_cases left : s.buffer = []
  case neg =>
    have left' : s.trimmed.buffer ≠ [] := left
    rw [Refill.ask_of_buffer _ left, Refill.ask_of_buffer _ left']
    rfl
  case pos =>
    obtain ⟨buffer, pending, n⟩ := s
    cases left
    show Source.request ⟨[], trimEnds pending, n⟩ =
      Result.mapState Source.trimmed (Source.request ⟨[], pending, n⟩)
    cases pending with
    | nil => rfl
    | cons e rest =>
      rw [trimEnds]
      split_ifs with last
      · obtain ⟨rfl, none⟩ := last
        show _ = EStateM.Result.ok [] (Source.mk [] (trimEnds rest) n)
        rw [none]
        rfl
      · cases e <;> rfl

/-- A scanner that asks once cannot tell a source from its trimmed one. -/
lemma trimmed_carries : Carries Source.trimmed .once .once where
  ask := trimmed_ask
  advance _ _ := rfl
  unread s := congrArg (s.buffer ++ ·) (trimEnds_bytes s.pending)
  consumed _ := rfl

/-! ## Events that hide the difference -/

/-- Nothing but ends, in pairs except for the last one, and interruptions between the pairs. -/
inductive Closing : List Event → Prop where
  | done :
    Closing []
  | last :
    Closing [.ended]
  | pair {rest} :
    Closing rest →
    Closing (.ended :: .ended :: rest)
  | interruption {e rest} :
    e.isInterruption = true →
    Closing rest →
    Closing (e :: rest)

/-- From the first end of the data on, the events are closing. -/
inductive EndsLast : List Event → Prop where
  | closing {events} :
    Closing events →
    EndsLast events
  | cons {e rest} :
    e ≠ .ended →
    EndsLast rest →
    EndsLast (e :: rest)

/-- An interruption is not an end of the data. -/
lemma ne_ended {e : Event} (h : e.isInterruption = true) : e ≠ .ended := by
  rintro rfl
  cases h

/-- What is left of `normalize` behind its other cases. -/
lemma ne_ended_of_normal {e : Event} {rest : List Event} (last : e = .ended → rest ≠ [])
    (behind : ∀ e' rest', e = .ended → rest ≠ e' :: rest') : e ≠ .ended := by
  rintro rfl
  cases rest with
  | nil => exact last rfl rfl
  | cons e rest => exact behind e rest rfl rfl

/-- Asking twice skips an interruption, and leaves any other event but an end as it is. -/
lemma normalize_cons {e : Event} (other : e ≠ .ended) (rest : List Event) :
    normalize (e :: rest) = if e.isInterruption then normalize rest else e :: normalize rest := by
  cases e with
  | ended => exact absurd rfl other
  | data | fault | abort => rfl

/-- Both ways of asking find only ends in events that close. -/
lemma Closing.ends {events : List Event} (closing : Closing events) :
    (∀ e ∈ normalize events, e = .ended) ∧ ∀ e ∈ quiet events, e = .ended := by
  induction closing with
  | done => exact ⟨nofun, nofun⟩
  | last => exact ⟨by simp [normalize], by simp [quiet, Event.isInterruption]⟩
  | @pair rest closing ih =>
    have two : quiet (.ended :: .ended :: rest) = .ended :: .ended :: quiet rest := rfl
    rw [normalize, two]
    simpa only [List.forall_mem_cons, true_and] using ih
  | interruption h closing ih =>
    rwa [normalize_cons (ne_ended h), if_pos h, quiet_cons_interruption h]

/-- Both ways of asking find the same in events whose ends come last, up to ends behind all else. -/
lemma EndsLast.trimEnds_normalize {events : List Event} (last : EndsLast events) :
    trimEnds (normalize events) = trimEnds (quiet events) := by
  induction last with
  | closing closing => rw [trimEnds_ends closing.ends.1, trimEnds_ends closing.ends.2]
  | @cons e rest other last ih =>
    rw [normalize_cons other]
    split_ifs with h
    · rw [quiet_cons_interruption h, ih]
    · rw [quiet_cons_other h, trimEnds_cons other, trimEnds_cons other, ih]

namespace Scanner

/-! ## Telling sources apart -/

/-- No requests tell the two sources apart. -/
def Indistinct (s t : Source) : Prop :=
  ∀ qs, session .once qs s = session .once qs t

/-- One request on each side gives the same reply and leaves sources as hard to tell apart. -/
lemma Indistinct.step {s t : Source} (same : Indistinct s t) (q : Request) :
    Reply.of s (answer .once q s) = Reply.of t (answer .once q t) ∧
      Indistinct (Result.state (answer .once q s)) (Result.state (answer .once q t)) :=
  ⟨(List.cons.inj (same [q])).1, fun qs => (List.cons.inj (same (q :: qs))).2⟩

/-- Behind events that both sources share, an end of the data is matched by another end only. The
induction is on the events shared: lines are asked for until they are used up. -/
lemma Indistinct.ended {s : Source} {e : Event} {later later' : List Event}
    (same : Indistinct (s.followedBy (e :: later)) (s.followedBy (.ended :: later'))) :
    e = .ended ∧ ∃ n, Indistinct ⟨[], later, n⟩ ⟨[], later', n⟩ := by
  induction size : s.size using Nat.strong_induction_on generalizing s with
  | _ k ih =>
  subst size
  obtain ⟨reply, next⟩ := same.step .line
  simp only [answer_line, state_lineOf] at reply next
  cases span_extends (fun b => b != lf) s with
  | within smaller found =>
    have moved : ∀ later, behindRun (span .once (fun b => b != lf) (s.followedBy later)) =
        (behindRun (span .once (fun b => b != lf) s)).followedBy later := by
      intro later
      rw [found]
      rcases span .once (fun b => b != lf) s with ⟨⟨run, _ | _⟩, t⟩ | ⟨e, t⟩ <;> rfl
    rw [moved, moved] at next
    exact ih _ smaller next rfl
  | @beyond run n found =>
    have last : ∀ later, span .once (fun b => b != lf) ⟨[], .ended :: later, n⟩ =
        .ok ([], false) ⟨[], later, n⟩ := fun _ => span_of_nil rfl _
    have counted : s.consumed ≤ n := by
      have le := consumed_le_behindRun .once (fun b => b != lf) (s.followedBy (.ended :: later'))
      rwa [found, last] at le
    rw [found, found, last later'] at reply next
    cases e with
    | ended =>
      rw [last later] at next
      exact ⟨rfl, n, next⟩
    | data b bs =>
      -- the data would be consumed, in part at least
      have asked : Refill.once.ask ⟨[], .data b bs :: later, n⟩ =
          .ok (b :: bs) ⟨b :: bs, later, n⟩ := rfl
      have taken := @consumed_lt_behindRun .once (fun b => b != lf) ⟨b :: bs, later, n⟩ b bs rfl
      have count := congrArg Reply.consumed reply
      rw [span_of_ask asked] at count
      simp only [Reply.of, state_lineOf, behindRun_prepend] at count
      change _ - s.consumed = n - s.consumed at count
      change n < _ at taken
      omega
    | fault f =>
      have failed : span .once (fun b => b != lf) ⟨[], .fault f :: later, n⟩ =
          .error (.error (.io f)) ⟨[], later, n⟩ := span_of_error rfl _
      rw [failed] at reply
      cases eq_endOfInput_of_lineOf (congrArg Reply.outcome reply).symm
    | abort message =>
      have failed : span .once (fun b => b != lf) ⟨[], .abort message :: later, n⟩ =
          .error (.abort (.stream message)) ⟨[], later, n⟩ := span_of_error rfl _
      rw [failed] at reply
      cases eq_endOfInput_of_lineOf (congrArg Reply.outcome reply).symm

/-- Where the events differ already, some ends are still to be seen on one side, and the events
behind them are closing. The induction is on what asking twice makes of these. -/
lemma closing_of_indistinct {events : List Event} {k n : Nat}
    (same : Indistinct ⟨[], normalize events, n⟩
      ⟨[], List.replicate (k + 1) .ended ++ quiet events, n⟩) : Closing events := by
  have shared : ∀ events, Source.mk [] events n = (Source.mk [] [] n).followedBy events :=
    fun _ => rfl
  fun_induction normalize events generalizing k n with
  | case1 => exact .done
  | case2 => exact .last
  | case3 e rest ih =>
    rw [shared, shared (_ ++ _), List.replicate_succ, List.cons_append] at same
    obtain ⟨rfl, m, more⟩ := same.ended
    have ends : List.replicate k .ended ++ quiet (.ended :: .ended :: rest) =
        List.replicate (k + 1 + 1) .ended ++ quiet rest := by
      rw [List.replicate_succ', List.replicate_succ', List.append_assoc, List.append_assoc]
      rfl
    rw [ends] at more
    exact .pair (ih more fun _ => rfl)
  | case4 e rest _ _ interrupts ih =>
    rw [quiet_cons_interruption interrupts] at same
    exact .interruption interrupts (ih same shared)
  | case5 e rest last behind other ih =>
    rw [shared, shared (_ ++ _), List.replicate_succ, List.cons_append] at same
    exact absurd same.ended.1 (ne_ended_of_normal last behind)

/-- The events in front of the first end are shared, but for interruptions. -/
lemma endsLast_of_indistinct {s : Source} {events : List Event}
    (same : Indistinct (s.followedBy (normalize events)) (s.followedBy (quiet events))) :
    EndsLast events := by
  fun_induction normalize events generalizing s with
  | case1 => exact .closing .done
  | case2 => exact .closing .last
  | case3 e rest ih =>
    obtain ⟨rfl, m, more⟩ := Indistinct.ended same
    exact .closing (.pair (@closing_of_indistinct rest 0 m more))
  | case4 e rest _ _ interrupts ih =>
    rw [quiet_cons_interruption interrupts] at same
    exact .cons (ne_ended interrupts) (ih same)
  | case5 e rest last behind other ih =>
    rw [quiet_cons_other other, s.followedBy_cons e (normalize rest),
      s.followedBy_cons e (quiet rest)] at same
    exact .cons (ne_ended_of_normal last behind) (ih same)

/-- A scanner that asks twice answers as one that only skips interruptions, just when behind the
first end of the data there are only ends, in pairs but for the last one, and interruptions between
the pairs. The one that skips interruptions heeds every end, whatever the events. -/
theorem session_uninterrupted_iff (events : List Event) :
    ((∀ qs, session .twice qs (.ofEvents events) = session .uninterrupted qs (.ofEvents events)) ↔
        EndsLast events) ∧
      ∀ q s, Heeded .uninterrupted q s := by
  refine ⟨?_, answer_heeded⟩
  have normal : ∀ qs, session .once qs (.ofEvents (normalize events)) =
      session .twice qs (.ofEvents events) :=
    fun qs => normal_carries.session qs (.ofEvents events)
  have calm : ∀ qs, session .once qs (.ofEvents (quiet events)) =
      session .uninterrupted qs (.ofEvents events) :=
    fun qs => quiet_carries.session qs (.ofEvents events)
  have trimmed : ∀ qs events, session .once qs (.ofEvents (trimEnds events)) =
      session .once qs (.ofEvents events) :=
    fun qs events => trimmed_carries.session qs (.ofEvents events)
  constructor
  · intro same
    have indistinct : Indistinct (.ofEvents (normalize events)) (.ofEvents (quiet events)) := by
      intro qs
      rw [normal, calm, same]
    exact @endsLast_of_indistinct (.ofEvents []) events indistinct
  · intro last qs
    rw [← normal, ← calm, ← trimmed, last.trimEnds_normalize, trimmed]

/-- A token goes on behind an end of the data, and the next request fails with an interruption. -/
theorem session_behind_end :
    let interruption : Fault := ⟨.interrupted, "again"⟩
    let source := Source.ofEvents
      [.data 0x61 [], .ended, .data 0x62 [0x20], .ended, .fault interruption]
    let twice := session .twice [.token, .token] source
    let uninterrupted := session .uninterrupted [.token, .token] source
    twice =
        [⟨.ok (.bytes [0x61, 0x62]), 2, [0x20]⟩, ⟨.error (.error (.io interruption)), 1, []⟩] ∧
      uninterrupted =
        [⟨.ok (.bytes [0x61]), 1, [0x62, 0x20]⟩, ⟨.ok (.bytes [0x62]), 1, [0x20]⟩] ∧
      twice ≠ uninterrupted := by
  intro interruption source twice uninterrupted
  have joined : twice =
      [⟨.ok (.bytes [0x61, 0x62]), 2, [0x20]⟩, ⟨.error (.error (.io interruption)), 1, []⟩] := by
    simp only [twice, source, interruption]
    cbv
  have apart : uninterrupted =
      [⟨.ok (.bytes [0x61]), 1, [0x62, 0x20]⟩, ⟨.ok (.bytes [0x62]), 1, [0x20]⟩] := by
    simp only [uninterrupted, source, interruption]
    cbv
  refine ⟨joined, apart, ?_⟩
  rw [joined, apart]
  simp

end Scanner

end Teletype
