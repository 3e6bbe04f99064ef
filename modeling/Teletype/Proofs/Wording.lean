import Mathlib
import Teletype.Failure
import Teletype.Proofs.Quoted.Reading

/-!
# The wording of errors

A message says which error it is of. Its first words tell the variant (`opening`), and what stands
behind them can be taken apart again: numbers and expectations have no comma in them, and a quoted
token reads back. Only the kind of a fault has no words of its own (`Error.Alike`).
-/

namespace Teletype

/-- What reading a value may expect. -/
def Expected.all : List String :=
  [integer, float, boolean, utf8, completeUtf8]

namespace Error

/-- The words that a message starts with. -/
def opening : Error → List Char
  | outOfRange .. => "Index out of range: index ".toList
  | negativeLength _ => "Negative length: ".toList
  | format .. => "Expected ".toList
  | endOfInput => "End of input".toList
  | io _ => "I/O failure: ".toList

/-- What a message says behind its first words. -/
def details : Error → List Char
  | outOfRange index length =>
    (toString index).toList ++ ',' :: (" length ".toList ++ (toString length).toList)
  | negativeLength length => (toString length.toInt).toList
  | format expected token =>
    expected.toList ++ ',' :: (" found ".toList ++ Quoted.write token.toList)
  | endOfInput => []
  | io fault => fault.message.toList

/-- A message is its opening words and its details. -/
lemma toList_message (e : Error) : e.message.toList = e.opening ++ e.details := by
  cases e with
  | outOfRange index length =>
    show ("Index out of range: index " ++ toString index ++ ", length " ++
      toString length).toList = _
    simp only [String.toList_append, List.append_assoc]
    rfl
  | negativeLength length => exact String.toList_append ..
  | format expected token =>
    show ("Expected " ++ expected ++ ", found " ++
      String.ofList (Quoted.write token.toList)).toList = _
    simp only [String.toList_append, List.append_assoc, String.toList_ofList]
    rfl
  | endOfInput => rfl
  | io fault => exact String.toList_append ..

/-! ## Taking messages apart -/

/-- The first two characters, with which no other variant starts. -/
def mark : Error → List Char
  | outOfRange .. => ['I', 'n']
  | negativeLength _ => ['N', 'e']
  | format .. => ['E', 'x']
  | endOfInput => ['E', 'n']
  | io _ => ['I', '/']

/-- A message starts with the mark of its variant. -/
lemma take_message (e : Error) : e.message.toList.take 2 = e.mark := by
  rw [toList_message]
  cases e <;> rfl

/-- Errors with the same message have the same mark. -/
lemma mark_of_message {a b : Error} (same : a.message = b.message) : a.mark = b.mark := by
  rw [← take_message, same, take_message]

/-- A number has no comma in it. -/
lemma not_comma_of_mem_toString (i : Int) : ∀ c ∈ (toString i).toList, (c != ',') = true := by
  have digits : ∀ n : Nat, ∀ c ∈ (Nat.repr n).toList, (c != ',') = true := by
    intro n c mem
    rw [Nat.repr, String.toList_ofList] at mem
    have digit := Nat.isDigit_of_mem_toDigits (by decide) (by decide) mem
    exact bne_iff_ne.mpr fun same => absurd digit (by rw [same]; decide)
  cases i with
  | ofNat n => exact digits n
  | negSucc n =>
    show ∀ c ∈ ("-" ++ Nat.repr n.succ).toList, _
    rw [String.toList_append, List.forall_mem_append]
    exact ⟨List.forall_mem_singleton.mpr (by decide), digits n.succ⟩

/-- What is expected has no comma in it. -/
lemma not_comma_of_mem_expected {expected : String} (mem : expected ∈ Expected.all) :
    ∀ c ∈ expected.toList, (c != ',') = true := by
  have all : ∀ expected ∈ Expected.all, expected.toList.all (· != ',') = true := by decide
  exact List.all_eq_true.mp (all expected mem)

/-- Different numbers are written differently. -/
lemma toString_inj {i j : Int} (same : (toString i).toList = (toString j).toList) : i = j := by
  have found := Int.toInt?_repr i
  rw [show i.repr = j.repr from String.toList_inj.mp same, Int.toInt?_repr] at found
  exact (Option.some.inj found).symm

/-- The details of a position out of range tell the position and the length. -/
lemma outOfRange_of_details {i j : Int} {m n : Nat}
    (same : (outOfRange i m).details = (outOfRange j n).details) : i = j ∧ m = n := by
  obtain ⟨indexes, rest⟩ := append_stop_inj (not_comma_of_mem_toString i)
    (not_comma_of_mem_toString j) rfl rfl same
  have lengths := List.append_cancel_left (List.cons.inj rest).2
  exact ⟨toString_inj indexes, Nat.repr_inj.mp (String.toList_inj.mp lengths)⟩

/-- The details of a misread token tell what was expected and the token. -/
lemma format_of_details {expected expected' token token' : String} (mem : expected ∈ Expected.all)
    (mem' : expected' ∈ Expected.all)
    (same : (format expected token).details = (format expected' token').details) :
    expected = expected' ∧ token = token' := by
  obtain ⟨expectations, rest⟩ := append_stop_inj (not_comma_of_mem_expected mem)
    (not_comma_of_mem_expected mem') rfl rfl same
  have tokens := List.append_cancel_left (List.cons.inj rest).2
  exact ⟨String.toList_inj.mp expectations,
    String.toList_inj.mp (Quoted.write_injective tokens)⟩

/-- What is expected, if anything, is one of the things that reading a value may expect. -/
def IsWorded : Error → Prop
  | format expected _ => expected ∈ Expected.all
  | _ => True

/-- The same error, but for the kind of a fault. -/
inductive Alike : Error → Error → Prop where
  | refl (e) :
    Alike e e
  | io {f g} :
    f.message = g.message →
    Alike (.io f) (.io g)

/-- Alike errors have the same message. -/
lemma Alike.message {a b : Error} (alike : a.Alike b) : a.message = b.message := by
  cases alike with
  | refl => rfl
  | io same => exact congrArg ("I/O failure: " ++ ·) same

/-- Alike errors were made of the same token. -/
lemma Alike.token {expected expected' token token' : String}
    (alike : (format expected token).Alike (format expected' token')) : token = token' := by
  cases alike
  rfl

/-- Errors with the same message are alike. -/
lemma alike_of_message {a b : Error} (ha : a.IsWorded) (hb : b.IsWorded)
    (same : a.message = b.message) : a.Alike b := by
  have marks := mark_of_message same
  have chars := congrArg String.toList same
  rw [toList_message, toList_message] at chars
  -- errors of two variants differ in their marks; those of one variant have the same opening
  cases a with
  | outOfRange =>
    cases b with
    | outOfRange =>
      obtain ⟨rfl, rfl⟩ := outOfRange_of_details (List.append_cancel_left chars)
      exact .refl _
    | negativeLength | format | endOfInput | io => simp [mark] at marks
  | negativeLength =>
    cases b with
    | negativeLength =>
      have lengths := toString_inj (List.append_cancel_left chars)
      rw [Int32.toInt_inj.mp lengths]
      exact .refl _
    | outOfRange | format | endOfInput | io => simp [mark] at marks
  | format =>
    cases b with
    | format =>
      obtain ⟨rfl, rfl⟩ := format_of_details ha hb (List.append_cancel_left chars)
      exact .refl _
    | outOfRange | negativeLength | endOfInput | io => simp [mark] at marks
  | endOfInput =>
    cases b with
    | endOfInput => exact .refl _
    | outOfRange | negativeLength | format | io => simp [mark] at marks
  | io =>
    cases b with
    | io => exact .io (String.toList_inj.mp (List.append_cancel_left chars))
    | outOfRange | negativeLength | format | endOfInput => simp [mark] at marks

/-- A message that quotes a token stays on one line. -/
lemma not_isBreak_of_mem_format {expected token : String} (mem : expected ∈ Expected.all) :
    ∀ c ∈ (format expected token).message.toList, ¬ Quoted.IsBreak c := by
  have plain : ∀ expected ∈ Expected.all, ∀ c ∈ expected.toList, ¬ Quoted.IsBreak c := by
    simp [Expected.all, Expected.integer, Expected.float, Expected.boolean, Expected.utf8,
      Expected.completeUtf8, Quoted.IsBreak]
  have chars : (format expected token).message.toList = "Expected ".toList ++
      (expected.toList ++ ',' :: (" found ".toList ++ Quoted.write token.toList)) :=
    toList_message _
  rw [chars]
  simp only [List.forall_mem_append, List.forall_mem_cons]
  exact ⟨by simp [Quoted.IsBreak], plain expected mem, by simp [Quoted.IsBreak],
    by simp [Quoted.IsBreak], Quoted.not_isBreak_of_mem_write _⟩

/-- Errors have the same message only if they are the same, but for the kind of a fault. What a
message quotes reads back as the token that was found, and the message stays on one line. -/
theorem message_identifies :
    (∀ a b : Error, a.IsWorded → b.IsWorded → (a.message = b.message ↔ a.Alike b)) ∧
      ∀ expected ∈ Expected.all, ∀ token : String, ∃ quoted,
        (format expected token).message =
            "Expected " ++ expected ++ ", found " ++ String.ofList quoted ∧
          Quoted.read? quoted = some token.toList ∧
          '\n' ∉ (format expected token).message.toList ∧
          '\r' ∉ (format expected token).message.toList := by
  refine ⟨fun a b ha hb => ⟨alike_of_message ha hb, Alike.message⟩, ?_⟩
  intro expected mem token
  have line := @not_isBreak_of_mem_format expected token mem
  exact ⟨Quoted.write token.toList, rfl, Quoted.read?_write _,
    fun feed => line _ feed (.inl rfl), fun ret => line _ ret (.inr rfl)⟩

/-- A token that looks like the escape of another one. -/
theorem message_identifies_lookalike :
    let lookalike := format Expected.utf8 "\\u\x7b7f\x7d"
    let hidden := format Expected.utf8 "\x7f"
    lookalike.IsWorded ∧ hidden.IsWorded ∧ lookalike.message ≠ hidden.message := by
  intro lookalike hidden
  have mem : Expected.utf8 ∈ Expected.all := by simp [Expected.all]
  refine ⟨mem, mem, fun same => ?_⟩
  have alike := (message_identifies.1 lookalike hidden mem mem).mp same
  exact absurd alike.token (by decide)

end Error

end Teletype
