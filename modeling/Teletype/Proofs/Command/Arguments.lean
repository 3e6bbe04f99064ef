import Mathlib
import Teletype.Proofs.Command.Transparency

/-!
# Command lines taken apart

`Parsed` says what becomes of a command and the words behind it. The first stray option among them
is refused. Without one there are the command as it stands, the switch for verbose mode, and the
other words in order (`parse_parsed`). So it does not matter where the flags for verbose mode are or
how many: words that differ in these alone come apart alike (`Reflagged.alike`).
-/

namespace Teletype.Command.Arguments

variable {command : String} {rest more : List String} {word : String}

/-! ## One command line -/

/-- An option other than the one that is known. -/
structure IsStray (word : String) : Prop where
  dashes : ['-', '-'] <+: word.toList
  unknown : word ≠ "--verbose"

/-- What becomes of a command and the words behind it: the first stray option, or all of them
sorted. -/
inductive Parsed (command : String) (rest : List String) : Except Notice Arguments → Prop where
  | refused {front word behind} :
    rest = front ++ word :: behind →
    (∀ other ∈ front, ¬ IsStray other) →
    IsStray word →
    Parsed command rest (.error (.unknownOption word))
  | sorted {verbose} :
    (∀ word ∈ rest, ¬ IsStray word) →
    (verbose = true ↔ "--verbose" ∈ rest) →
    Parsed command rest (.ok ⟨command, verbose, rest.filter (· ≠ "--verbose")⟩)

/-- Options are found to be stray where they are. -/
lemma isStray_iff : (isOption word && word != verboseOption) = true ↔ IsStray word := by
  rw [Bool.and_eq_true, bne_iff_ne, isOption, List.isPrefixOf_iff_prefix]
  exact ⟨fun stray => ⟨stray.1, stray.2⟩, fun stray => ⟨stray.dashes, stray.unknown⟩⟩

/-- Where no stray option is found there is none. -/
lemma not_isStray_of_stray? (none : stray? rest = none) : ∀ word ∈ rest, ¬ IsStray word := by
  intro word mem stray
  exact List.find?_eq_none.mp none word mem (isStray_iff.mpr stray)

/-- Where no option is stray, the operands are all words but the flags. -/
lemma operands_eq_filter (known : ∀ word ∈ rest, ¬ IsStray word) :
    operands rest = rest.filter (· ≠ "--verbose") := by
  apply List.filter_congr
  intro word mem
  by_cases option : isOption word = true
  · have verbose : word = "--verbose" := by
      by_contra other
      refine known word mem (isStray_iff.mp ?_)
      rw [Bool.and_eq_true, bne_iff_ne]
      exact ⟨option, other⟩
    rw [verbose]
    decide
  · have other : word ≠ "--verbose" := by
      rintro rfl
      exact option isOption_verboseOption
    simp [option, other]

/-- A command line is refused for its first stray option, or else sorted. -/
lemma parse_cons (command : String) (rest : List String) : parse (command :: rest) =
    match stray? rest with
    | some word => .error (.unknownOption word)
    | none => .ok ⟨command, decide (verboseOption ∈ rest), operands rest⟩ := by
  rw [parse, sort_eq]
  cases stray? rest <;> rfl

/-- Every command line is one of the two cases. -/
lemma parse_cases (command : String) (rest : List String) :
    Parsed command rest (parse (command :: rest)) := by
  rw [parse_cons]
  cases found : stray? rest with
  | some word =>
    obtain ⟨stray, front, behind, split, known⟩ := List.find?_eq_some_iff_append.mp found
    refine .refused split (fun other mem unknown => ?_) (isStray_iff.mp stray)
    have passed := known other mem
    rw [isStray_iff.mpr unknown] at passed
    cases passed
  | none =>
    have known := not_isStray_of_stray? found
    simp only [operands_eq_filter known]
    exact .sorted known decide_eq_true_iff

/-- A command line is refused for its stray options and for nothing else. -/
lemma Parsed.refused_iff {result} (parsed : Parsed command rest result) :
    (∃ notice, result = .error notice) ↔ ∃ word ∈ rest, IsStray word := by
  cases parsed with
  | @refused front word behind split _ stray =>
    have mem : word ∈ rest := split ▸ List.mem_append_right front List.mem_cons_self
    exact ⟨fun _ => ⟨word, mem, stray⟩, fun _ => ⟨_, rfl⟩⟩
  | sorted known =>
    refine ⟨nofun, ?_⟩
    rintro ⟨word, mem, stray⟩
    exact absurd stray (known word mem)

/-! ## Two command lines -/

/-- The same words with flags for verbose mode put in, wherever they are and however many. -/
def Reflagged (rest more : List String) : Prop :=
  ∃ words, Flagged words rest ∧ Flagged words more

/-- Nothing differs but the switch. -/
inductive Alike : Except Notice Arguments → Except Notice Arguments → Prop where
  | refused {notice} :
    Alike (.error notice) (.error notice)
  | sorted {command verbose verbose' positional} :
    Alike (.ok ⟨command, verbose, positional⟩) (.ok ⟨command, verbose', positional⟩)

/-- Words that differ in the flags for verbose mode alone are sorted alike. -/
lemma Reflagged.alike (reflagged : Reflagged rest more) (command : String) :
    Alike (parse (command :: rest)) (parse (command :: more)) := by
  obtain ⟨words, flagged, flagged'⟩ := reflagged
  rw [parse_cons, parse_cons, flagged.stray?, flagged'.stray?, flagged.operands,
    flagged'.operands]
  cases stray? words with
  | some word => exact .refused
  | none => exact .sorted

/-- The words behind a command are refused just when an option among them is stray, and then the
first such one is named. Otherwise the command is kept as it stands, the flags turn verbose mode on
wherever they are, and the other words stay in order. Putting flags in or moving them changes no
more than the switch. -/
theorem parse_parsed (command : String) (rest : List String) :
    Parsed command rest (parse (command :: rest)) ∧
      ((∃ notice, parse (command :: rest) = .error notice) ↔ ∃ word ∈ rest, IsStray word) ∧
      ∀ more, Reflagged rest more → Alike (parse (command :: rest)) (parse (command :: more)) := by
  have parsed := parse_cases command rest
  exact ⟨parsed, parsed.refused_iff, fun more reflagged => reflagged.alike command⟩

/-- A flag in the place of the command is no flag. The one among the words is moved and put in a
second time, and words that stand twice stay so. -/
theorem parse_parsed_moved :
    let rest := ["int", "--verbose", "int"]
    let more := ["--verbose", "int", "int", "--verbose"]
    Reflagged rest more ∧
      parse ("--verbose" :: rest) = .ok ⟨"--verbose", true, ["int", "int"]⟩ ∧
      Alike (parse ("--verbose" :: rest)) (parse ("--verbose" :: more)) := by
  intro rest more
  have reflagged : Reflagged rest more :=
    ⟨["int", "int"], .keep (.flag (.keep .done)), .flag (.keep (.keep (.flag .done)))⟩
  exact ⟨reflagged, rfl, (parse_parsed "--verbose" rest).2.2 more reflagged⟩

end Teletype.Command.Arguments
