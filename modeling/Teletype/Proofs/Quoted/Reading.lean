import Mathlib
import Teletype.Quoted
import Teletype.Proofs.Runs

/-!
# Reading quoted text

Quoted text can be read back. `next?` takes one character off the front of an escaped text, by its
escape or as it stands, so no text, though it look like an escape, is taken for another
(`read?_write`). Quoted text stays on one line (`not_isBreak_of_mem_write`).
-/

namespace Teletype.Quoted

/-! ## Code points -/

/-- The value of a hexadecimal digit. -/
def hexDigit? (c : Char) : Option Nat :=
  (List.range 16).find? fun d => Nat.digitChar d == c

/-- The number that hexadecimal digits stand for. -/
def hexValue? (cs : List Char) : Option Nat :=
  cs.foldlM (fun value c => (hexDigit? c).map (16 * value + ·)) 0

/-- A hexadecimal digit reads back. -/
lemma hexDigit?_digitChar {d : Nat} (small : d < 16) : hexDigit? (Nat.digitChar d) = some d := by
  revert d
  decide

/-- The induction takes the last digit off. -/
lemma hexValue?_toDigits (n : Nat) : hexValue? (Nat.toDigits 16 n) = some n := by
  induction n using Nat.strong_induction_on with
  | h n ih =>
    by_cases small : n < 16
    · rw [Nat.toDigits_of_lt_base small]
      simp [hexValue?, hexDigit?_digitChar small]
    · have front := ih (n / 16) (by omega)
      have last := hexDigit?_digitChar (Nat.mod_lt n (by decide : 0 < 16))
      unfold hexValue? at front ⊢
      rw [Nat.toDigits_of_base_le (by decide) (by omega), List.foldlM_append, front]
      simp [last, Nat.div_add_mod]

/-- No other character stands among hexadecimal digits. -/
lemma ne_of_foldlM {cs : List Char} {value n : Nat} {c d : Char}
    (found : cs.foldlM (fun value c => (hexDigit? c).map (16 * value + ·)) value = some n)
    (mem : c ∈ cs) (other : hexDigit? d = none) : c ≠ d := by
  induction cs generalizing value with
  | nil => cases mem
  | cons e cs ih =>
    obtain ⟨next, pushed, found⟩ := Option.bind_eq_some_iff.mp found
    rcases List.mem_cons.mp mem with rfl | mem
    · rintro rfl
      simp [other] at pushed
    · exact ih found mem

/-- What is no digit does not occur in a number. -/
lemma ne_of_mem_toDigits {n : Nat} {c d : Char} (mem : c ∈ Nat.toDigits 16 n)
    (other : hexDigit? d = none) : c ≠ d :=
  ne_of_foldlM (hexValue?_toDigits n) mem other

/-! ## Reading -/

/-- What a backslash makes of the character behind it. -/
def letter? : Char → Option Char
  | '0' => some '\x00'
  | 't' => some '\t'
  | 'n' => some '\n'
  | 'r' => some '\r'
  | '\x22' => some '\x22'
  | '\\' => some '\\'
  | _ => none

/-- The first character of an escaped text, and what stands behind it. -/
def next? : List Char → Option (Char × List Char)
  | [] => none
  | '\x22' :: _ => none
  | '\\' :: 'u' :: '\x7b' :: cs =>
    match cs.dropWhile (· != '\x7d') with
    | [] => none
    | _ :: rest => (hexValue? (cs.takeWhile (· != '\x7d'))).map fun n => (Char.ofNat n, rest)
  | '\\' :: c :: cs => (letter? c).map fun d => (d, cs)
  | ['\\'] => none
  | c :: cs => some (c, cs)

/-- Every character read takes some of the text. -/
lemma next?_shorter {cs rest : List Char} {c : Char} (found : next? cs = some (c, rest)) :
    rest.length < cs.length := by
  unfold next? at found
  split at found
  next => cases found
  next => cases found
  next cs =>
    split at found
    next => cases found
    next last behind stop =>
      -- an escape by number goes up to its closing brace
      obtain ⟨n, value, same⟩ := Option.map_eq_some_iff.mp found
      cases same
      have suffix := (cs.dropWhile_suffix (· != '\x7d')).length_le
      rw [stop] at suffix
      simp only [List.length_cons] at suffix ⊢
      omega
  next =>
    obtain ⟨d, value, same⟩ := Option.map_eq_some_iff.mp found
    cases same
    simp only [List.length_cons]
    omega
  next => cases found
  next =>
    cases found
    exact Nat.lt_succ_self _

/-- The characters in front of the closing quote, which must come last. -/
def characters? (cs : List Char) : Option (List Char) :=
  if cs = ['\x22'] then some []
  else
    match _ : next? cs with
    | none => none
    | some (c, rest) => (characters? rest).map (c :: ·)
termination_by cs.length
decreasing_by exact next?_shorter ‹_›

/-- The text that a quoted text stands for. -/
def read? : List Char → Option (List Char)
  | '\x22' :: cs => characters? cs
  | _ => none

/-- A character that is neither a quote nor a backslash stands for itself. -/
lemma next?_plain {c : Char} (quote : c ≠ '\x22') (backslash : c ≠ '\\') (rest : List Char) :
    next? (c :: rest) = some (c, rest) := by
  rw [next?]
  · exact quote
  · exact fun _ same _ => backslash same
  · exact fun _ _ same _ => backslash same
  · exact fun same _ => backslash same

/-- What stands for a character is read as that character, whatever comes behind. -/
lemma next?_escape (c : Char) (rest : List Char) : next? (escape c ++ rest) = some (c, rest) := by
  unfold escape
  split
  iterate 6 next => rfl
  next quote backslash =>
    split
    next =>
      have all : ∀ d ∈ Nat.toDigits 16 c.toNat, (d != '\x7d') = true := by
        intro d mem
        exact bne_iff_ne.mpr (ne_of_mem_toDigits mem (by decide))
      have stop : ∀ d ∈ ('\x7d' :: rest).head?, (d != '\x7d') = false := by simp
      obtain ⟨front, behind⟩ := takeWhile_append_stop all stop
      simp only [List.append_assoc, List.cons_append, List.nil_append, next?, front, behind,
        hexValue?_toDigits, Option.map_some, Char.ofNat_toNat]
    next => exact next?_plain quote backslash rest

/-- What is written reads back, whatever the text looks like. -/
lemma characters?_escape (cs : List Char) :
    characters? (cs.flatMap escape ++ ['\x22']) = some cs := by
  induction cs with
  | nil => rw [characters?]; rfl
  | cons c cs ih =>
    have front := next?_escape c (cs.flatMap escape ++ ['\x22'])
    rw [List.flatMap_cons, List.append_assoc, characters?, if_neg]
    · split
      next none => rw [front] at none; cases none
      next d rest some =>
        rw [front] at some
        cases some
        rw [ih, Option.map_some]
    · intro last
      rw [last] at front
      cases front

/-- Quoted text reads back. -/
theorem read?_write (cs : List Char) : read? (write cs) = some cs :=
  characters?_escape cs

/-- Different texts are quoted differently. -/
theorem write_injective : Function.Injective write := by
  intro cs ds same
  have read := read?_write cs
  rw [same, read?_write] at read
  exact (Option.some.inj read).symm

/-! ## On one line -/

/-- The character ends a line. -/
def IsBreak (c : Char) : Prop :=
  c = '\n' ∨ c = '\r'

/-- A hexadecimal number stays on one line. -/
lemma not_isBreak_of_mem_toDigits {n : Nat} {c : Char} (mem : c ∈ Nat.toDigits 16 n) :
    ¬ IsBreak c :=
  not_or.mpr ⟨ne_of_mem_toDigits mem (by decide), ne_of_mem_toDigits mem (by decide)⟩

/-- The escape of a character stays on one line. -/
lemma not_isBreak_of_mem_escape (c : Char) : ∀ d ∈ escape c, ¬ IsBreak d := by
  unfold escape
  split
  iterate 6 next => simp [IsBreak]
  next feed ret _ _ =>
    split
    next =>
      simp only [List.forall_mem_append]
      exact ⟨⟨by simp [IsBreak], fun _ => not_isBreak_of_mem_toDigits⟩, by simp [IsBreak]⟩
    next => exact List.forall_mem_singleton.mpr (not_or.mpr ⟨feed, ret⟩)

/-- A quoted text stays on one line. -/
lemma not_isBreak_of_mem_write (cs : List Char) : ∀ d ∈ write cs, ¬ IsBreak d := by
  have escaped : ∀ d ∈ cs.flatMap escape, ¬ IsBreak d := by
    intro d mem
    obtain ⟨c, _, mem⟩ := List.mem_flatMap.mp mem
    exact not_isBreak_of_mem_escape c d mem
  unfold write
  rw [List.forall_mem_append, List.forall_mem_cons]
  exact ⟨⟨by simp [IsBreak], escaped⟩, by simp [IsBreak]⟩

end Teletype.Quoted
