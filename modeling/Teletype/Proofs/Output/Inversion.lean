import Mathlib
import Teletype.Output

/-!
# Sink inversion

What a sink can do, as judgments with one rule for each exit. `Takes` judges the calls that bring
bytes out, and `WriteAction.Fails` the one that a failure comes from; `Writes` puts them together to
what becomes of a run of bytes. `Flushes` judges a flush by the next action of the script. The
lemmas `write_writes` and `flush_flushes` say that sinks follow the rules.
-/

namespace Teletype

/-- The call is a flush, whatever came of it. -/
def Call.isFlush : Call → Bool
  | flush | flushFault _ | flushAbort => true
  | _ => false

/-- The failure that an action brings to a write, and the call it is logged as. An interruption is
none, and a call that takes no byte is one. -/
inductive WriteAction.Fails : WriteAction → Failure → Call → Prop where
  | zero :
    Fails (.atMost 0) (.error (.io .writeZero)) (.write [])
  | fault {f} :
    f.isInterrupted = false →
    Fails (.fault f) (.error (.io f)) (.writeFault f.kind)
  | abort {message} :
    Fails (.abort message) (.abort (.stream message)) .writeAbort

/-- The failure that an action brings to a flush, interruptions included. -/
inductive FlushAction.Fails : FlushAction → Failure → Call → Prop where
  | fault {f} :
    Fails (.fault f) (.error (.io f)) (.flushFault f.kind)
  | abort {message} :
    Fails (.abort message) (.abort (.stream message)) .flushAbort

/-- A failed write is no flush. -/
lemma WriteAction.Fails.not_flush {action : WriteAction} {e call} (fails : action.Fails e call) :
    call.isFlush = false := by
  cases fails <;> rfl

/-- No byte is taken by the call that fails. -/
lemma WriteAction.Fails.bytes {action : WriteAction} {e call} (fails : action.Fails e call) :
    call.bytes = [] := by
  cases fails <;> rfl

/-- A failed flush is one. -/
lemma FlushAction.Fails.flush {action : FlushAction} {e call} (fails : action.Fails e call) :
    call.isFlush = true := by
  cases fails <;> rfl

/-- A flush brings nothing to the sink. -/
lemma Call.bytes_of_flush {call : Call} (flush : call.isFlush = true) : call.bytes = [] := by
  cases call with
  | write | writeFault | writeAbort => cases flush
  | flush | flushFault | flushAbort => rfl

/-! ## Writing -/

/-- The calls take bytes off the front, piece by piece and each once, until `left` are left. An
interrupted call takes none. -/
inductive Takes : List UInt8 → List Call → List UInt8 → Prop where
  | refl {bytes} :
    Takes bytes [] bytes
  | piece {bs rest calls left} :
    bs ≠ [] →
    Takes rest calls left →
    Takes (bs ++ rest) (.write bs :: calls) left
  | again {bytes calls left} :
    bytes ≠ [] →
    Takes bytes calls left →
    Takes bytes (.writeFault .interrupted :: calls) left

/-- What the calls brought and what is left are the bytes. -/
lemma Takes.split {bytes calls left} (tk : Takes bytes calls left) :
    bytes = calls.flatMap Call.bytes ++ left := by
  induction tk with
  | refl => rfl
  | piece some tk ih =>
    rw [ih, List.flatMap_cons, List.append_assoc]
    rfl
  | again some tk ih => exact ih

/-- Only writes take bytes. -/
lemma Takes.not_flush {bytes calls left} (tk : Takes bytes calls left) :
    ∀ call ∈ calls, call.isFlush = false := by
  induction tk with
  | refl => simp
  | piece some tk ih => exact List.forall_mem_cons.mpr ⟨rfl, ih⟩
  | again some tk ih => exact List.forall_mem_cons.mpr ⟨rfl, ih⟩

/-- No bytes make no call. -/
lemma Takes.of_nil {calls left} (tk : Takes [] calls left) : calls = [] := by
  generalize e : ([] : List UInt8) = bytes at tk
  cases tk with
  | refl => rfl
  | piece some tk => exact absurd (List.append_eq_nil_iff.mp e.symm).1 some
  | again some tk => exact absurd e.symm some

/-- All bytes are brought out, or one call fails with some of them left. That is the call for which
the script holds the action that it fails by. -/
inductive Delivers (script : List WriteAction) (bytes : List UInt8) : Delivery → Prop where
  | whole {calls rest} :
    Takes bytes calls [] →
    rest <:+ script →
    Delivers script bytes ⟨.ok (), calls, rest⟩
  | cut {calls left action e call rest} :
    Takes bytes calls left →
    left ≠ [] →
    script[calls.length]? = some action →
    action.Fails e call →
    rest <:+ script →
    Delivers script bytes ⟨.error e, calls ++ [call], rest⟩

/-- One write may take all the bytes. -/
lemma takes_all {bytes : List UInt8} (some : bytes ≠ []) : Takes bytes [.write bytes] [] := by
  have tk : Takes (bytes ++ []) [.write bytes] [] := .piece some .refl
  rwa [List.append_nil] at tk

/-- One more call in front, with its action in front of the script. -/
lemma Delivers.after {script bytes more action call d}
    (step : ∀ {calls left}, Takes more calls left → Takes bytes (call :: calls) left)
    (dl : Delivers script more d) : Delivers (action :: script) bytes (d.after call) := by
  cases dl with
  | whole tk rest => exact .whole (step tk) (rest.trans (List.suffix_cons _ _))
  | cut tk some turn fails rest =>
    exact .cut (step tk) some turn fails (rest.trans (List.suffix_cons _ _))

/-- Every run of bytes is delivered by the rules. The induction follows the script. -/
lemma run_delivers (script : List WriteAction) (bytes : List UInt8) :
    Delivers script bytes (Delivery.run script bytes) := by
  fun_induction Delivery.run script bytes with
  | case1 script => exact .whole .refl (List.suffix_refl _)
  | case2 bytes some => exact .whole (takes_all some) (List.suffix_refl _)
  | case3 bytes some rest => exact .whole (takes_all some) (List.suffix_cons _ _)
  | case4 bytes some rest =>
    exact .cut .refl some rfl .zero (List.suffix_cons _ _)
  | case5 bytes some n rest positive ih =>
    refine ih.after fun {calls left} tk => ?_
    -- the action is for the first call, which takes a piece that is not empty
    have front : bytes.take n ≠ [] := by simp [positive, some]
    have more : Takes (bytes.take n ++ bytes.drop n) (.write (bytes.take n) :: calls) left :=
      .piece front tk
    rwa [List.take_append_drop] at more
  | case6 bytes some f rest interrupted ih =>
    obtain ⟨kind, message⟩ := f
    obtain rfl : kind = .interrupted := by simpa [Fault.isInterrupted] using interrupted
    exact ih.after (.again some)
  | case7 bytes some f rest other =>
    have fatal : f.isInterrupted = false := Bool.eq_false_iff.mpr other
    exact .cut .refl some rfl (.fault fatal) (List.suffix_cons _ _)
  | case8 bytes some message rest =>
    exact .cut .refl some rfl .abort (List.suffix_cons _ _)

namespace Sink

/-- What a write may do to the sink: all bytes are brought out, or one call of the script fails. -/
inductive Writes (bytes : List UInt8) (s : Sink) : EStateM.Result Failure Sink Unit → Prop where
  | whole {calls rest} :
    Takes bytes calls [] →
    rest <:+ s.writes →
    Writes bytes s (.ok () { s with writes := rest, log := s.log ++ calls })
  | cut {calls left action e call rest} :
    Takes bytes calls left →
    left ≠ [] →
    s.writes[calls.length]? = some action →
    action.Fails e call →
    rest <:+ s.writes →
    Writes bytes s (.error e { s with writes := rest, log := s.log ++ (calls ++ [call]) })

/-- Every write does one of the two. -/
lemma write_writes (bytes : List UInt8) (s : Sink) : Writes bytes s (write bytes s) := by
  have dl := run_delivers s.writes bytes
  unfold write
  generalize Delivery.run s.writes bytes = d at dl
  cases dl with
  | whole tk rest => exact .whole tk rest
  | cut tk some turn fails rest => exact .cut tk some turn fails rest

/-! ## Flushing -/

/-- The failure that the script holds for the next flush. -/
def refusal? (s : Sink) : Option Failure :=
  match s.flushes with
  | .fault f :: _ => some (.error (.io f))
  | .abort message :: _ => some (.abort (.stream message))
  | _ => none

/-- The sink behind a flush that was logged as `call`. -/
def flushed (s : Sink) (call : Call) : Sink :=
  { s with flushes := s.flushes.tail, log := s.log ++ [call] }

/-- What a flush may do to the sink: the next action of its script lets it pass or fails. -/
inductive Flushes (s : Sink) : EStateM.Result Failure Sink Unit → Prop where
  | done :
    s.refusal? = none →
    Flushes s (.ok () (s.flushed .flush))
  | failed {action e call} :
    s.flushes.head? = some action →
    action.Fails e call →
    s.refusal? = some e →
    Flushes s (.error e (s.flushed call))

/-- Every flush does one of the two. -/
lemma flush_flushes (s : Sink) : Flushes s (flush s) := by
  obtain ⟨writes, flushes, log⟩ := s
  rcases flushes with _ | ⟨_ | f | message, rest⟩
  · exact .done rfl
  · exact .done rfl
  · exact .failed rfl .fault rfl
  · exact .failed rfl .abort rfl

end Sink

end Teletype
