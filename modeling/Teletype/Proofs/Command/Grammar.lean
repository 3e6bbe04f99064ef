import Mathlib
import Teletype.Proofs.Command.Job
import Teletype.Proofs.Console.Steady

/-!
# The grammar of the command line

`Asks` has a rule for each form of command line that there is, and `Malformed` one for each way to
miss them all. A command line is parsed to what it asks for, or it is malformed and refused
(`Order.parse_cases`), and never both (`Asks.not_malformed`). `run_grammar` says what the command
makes of this: a malformed line leaves the streams alone, and any other ends with the exit code of
its job, since on steady consoles jobs do not abort.
-/

namespace Teletype.Command

open Console (Kind)

namespace Arguments

/-! ## Sorting -/

/-- The words that are no options. -/
def operands (words : List String) : List String :=
  words.filter fun word => !isOption word

/-- The first option that is not known. -/
def stray? (words : List String) : Option String :=
  words.find? fun word => isOption word && word != verboseOption

/-- The flag for verbose mode is an option. -/
lemma isOption_verboseOption : isOption verboseOption = true := by
  decide

/-- The flag for verbose mode is no operand. -/
@[simp] lemma operands_verbose (rest : List String) :
    operands (verboseOption :: rest) = operands rest := by
  simp [operands, isOption_verboseOption]

/-- The flag for verbose mode is not stray. -/
@[simp] lemma stray?_verbose (rest : List String) :
    stray? (verboseOption :: rest) = stray? rest := by
  simp [stray?]

/-- No option is stray just when all of them are the flag for verbose mode. -/
lemma stray?_eq_none_iff {words : List String} :
    stray? words = none ↔ ∀ word ∈ words, isOption word = true → word = verboseOption := by
  simp [stray?]

/-- A stray option is an option and not the flag for verbose mode. -/
lemma stray_of_stray? {words : List String} {word : String} (stray : stray? words = some word) :
    word ∈ words ∧ isOption word = true ∧ word ≠ verboseOption := by
  have unknown := List.find?_some stray
  simp only [Bool.and_eq_true, bne_iff_ne] at unknown
  exact ⟨List.mem_of_find?_eq_some stray, unknown⟩

/-- Words are sorted all at once: the first stray option, or the switch and the operands. -/
lemma sort_eq (words : List String) : sort words =
    match stray? words with
    | some word => .error (.unknownOption word)
    | none => .ok (decide (verboseOption ∈ words), operands words) := by
  induction words with
  | nil => rfl
  | cons word rest ih =>
    -- the switch is an option too, so it is to be asked for first
    by_cases verbose : word = verboseOption
    · subst verbose
      rw [sort, if_pos rfl, ih, stray?_verbose, operands_verbose]
      cases stray? rest <;> simp
    · by_cases option : isOption word = true
      · have stray : stray? (word :: rest) = some word := by simp [stray?, option, verbose]
        rw [sort, if_neg verbose, if_pos option, stray]
      · have stray : stray? (word :: rest) = stray? rest := by simp [stray?, option]
        have kept : operands (word :: rest) = word :: operands rest := by simp [operands, option]
        rw [sort, if_neg verbose, if_neg option, ih, stray, kept]
        cases stray? rest <;> simp [Ne.symm verbose]

end Arguments

open Arguments (isOption operands stray? verboseOption)

/-! ## Operands -/

/-- A program is found by its own name. -/
lemma Program.name_of_ofName? {name : String} {program : Program}
    (found : ofName? name = some program) : program.name = name := by
  simpa using List.find?_some found

/-- Where no program is found the name is none of theirs. -/
lemma Program.not_name_of_ofName? {name : String} (none : ofName? name = none) :
    name ≠ "string" ∧ name ≠ "fraction" := by
  constructor <;> (rintro rfl; cases none)

/-- One operand is taken for a program, and it is to be the only one. -/
lemma demo_named (names : List String) :
    (∃ program, Job.demo? names = .ok (.demo program) ∧ names = [program.name]) ∨
      ∃ notice, Job.demo? names = .error notice ∧ names ≠ ["string"] ∧ names ≠ ["fraction"] := by
  match names with
  | [] => exact .inr ⟨.missingProgram, rfl, nofun, nofun⟩
  | [name] =>
    cases found : Program.ofName? name with
    | none =>
      refine .inr ⟨.unknownProgram name, by rw [Job.demo?, found], ?_⟩
      simpa using Program.not_name_of_ofName? found
    | some program =>
      refine .inl ⟨program, by rw [Job.demo?, found], ?_⟩
      rw [Program.name_of_ofName? found]
  | _ :: argument :: _ => exact .inr ⟨.unexpectedArgument argument, rfl, nofun, nofun⟩

/-- A kind is found by its own name. -/
lemma kindName_of_ofName? {name : String} {kind : Kind}
    (found : Kind.ofName? name = some kind) : kind.name = name := by
  simpa using List.find?_some found

/-- Where no kind is found the name is none of theirs. -/
lemma not_kindName_of_ofName? {name : String} (none : Kind.ofName? name = none) :
    name ∉ ["int", "float", "bool", "string", "char", "line"] := by
  intro mem
  simp only [List.mem_cons, List.not_mem_nil, or_false] at mem
  rcases mem with rfl | rfl | rfl | rfl | rfl | rfl <;> cases none

/-- Operands are taken for kinds one by one, and the first that is none is refused. -/
lemma kinds_named (names : List String) :
    (∃ wanted, kinds names = .ok wanted ∧ names = wanted.map Kind.name) ∨
      ∃ name ∈ names, kinds names = .error (.unknownKind name) ∧
        Kind.ofName? name = none := by
  induction names with
  | nil => exact .inl ⟨[], rfl, rfl⟩
  | cons name rest ih =>
    cases found : Kind.ofName? name with
    | none =>
      refine .inr ⟨name, List.mem_cons_self, ?_, found⟩
      rw [kinds, found]
    | some kind =>
      rcases ih with ⟨wanted, all, rfl⟩ | ⟨other, mem, refused, none⟩
      · refine .inl ⟨kind :: wanted, ?_, ?_⟩
        · rw [kinds, found, all]; rfl
        · rw [List.map_cons, kindName_of_ofName? found]
      · refine .inr ⟨other, List.mem_cons_of_mem _ mem, ?_, none⟩
        rw [kinds, found, refused]; rfl

/-- With at least one operand a scan is wanted of the kinds they name. -/
lemma scan?_cons (first : String) (rest : List String) :
    Job.scan? (first :: rest) = Job.scan <$> kinds (first :: rest) := by
  cases asked : kinds (first :: rest) <;> simp only [Job.scan?, asked] <;> rfl

/-- Operands name the kinds of a scan, or they are refused: there are none, or one of them is no
kind. -/
lemma scan_named (names : List String) :
    (∃ wanted, Job.scan? names = .ok (.scan wanted) ∧ wanted ≠ [] ∧
        names = wanted.map Kind.name) ∨
      ∃ notice, Job.scan? names = .error notice ∧
        (names = [] ∨ ∃ name ∈ names, Kind.ofName? name = none) := by
  cases names with
  | nil => exact .inr ⟨.missingKind, rfl, .inl rfl⟩
  | cons first rest =>
    rcases kinds_named (first :: rest) with ⟨wanted, all, named⟩ | ⟨name, mem, refused, none⟩
    · refine .inl ⟨wanted, by rw [scan?_cons, all]; rfl, ?_, named⟩
      rintro rfl
      cases named
    · exact .inr ⟨.unknownKind name, by rw [scan?_cons, refused]; rfl, .inr ⟨name, mem, none⟩⟩

/-! ## Command lines -/

/-- The command line asks for the order. -/
inductive Asks : List String → Order → Prop where
  | demo {rest} {program : Program} :
    stray? rest = none →
    operands rest = [program.name] →
    Asks ("demo" :: rest) ⟨.demo program, decide (verboseOption ∈ rest)⟩
  | scan {rest kinds} :
    stray? rest = none →
    kinds ≠ [] →
    operands rest = kinds.map Kind.name →
    Asks ("scan" :: rest) ⟨.scan kinds, decide (verboseOption ∈ rest)⟩

/-- The ways in which a command line can be wrong. -/
inductive Malformed : List String → Prop where
  | empty :
    Malformed []
  | option {command rest word} :
    word ∈ rest →
    isOption word = true →
    word ≠ "--verbose" →
    Malformed (command :: rest)
  | command {command rest} :
    command ≠ "demo" →
    command ≠ "scan" →
    Malformed (command :: rest)
  | program {command rest} :
    command = "demo" →
    operands rest ≠ ["string"] →
    operands rest ≠ ["fraction"] →
    Malformed (command :: rest)
  | noKind {command rest} :
    command = "scan" →
    operands rest = [] →
    Malformed (command :: rest)
  | kind {command rest word} :
    command = "scan" →
    word ∈ operands rest →
    word ∉ ["int", "float", "bool", "string", "char", "line"] →
    Malformed (command :: rest)

/-- A command line is refused for its first stray option, or else the command decides on its
operands. -/
lemma Order.parse_cons (command : String) (rest : List String) :
    Order.parse (command :: rest) =
      match stray? rest with
      | some word => .error (.unknownOption word)
      | none => do
        let verbose := decide (verboseOption ∈ rest)
        let job ← Job.ofArguments ⟨command, verbose, operands rest⟩
        return ⟨job, verbose⟩ := by
  simp only [Order.parse, Arguments.parse, Arguments.sort_eq]
  cases stray? rest <;> rfl

/-- Without a stray option the command and the operands decide. -/
lemma ofArguments_cases (command : String) {rest : List String} (known : stray? rest = none) :
    let verbose := decide (verboseOption ∈ rest)
    let asked := Job.ofArguments ⟨command, verbose, operands rest⟩
    (∃ job, asked = .ok job ∧ Asks (command :: rest) ⟨job, verbose⟩) ∨
      ∃ notice, asked = .error notice ∧ Malformed (command :: rest) := by
  intro verbose asked
  by_cases demo : command = "demo"
  · subst demo
    rcases demo_named (operands rest) with ⟨program, job, named⟩ | ⟨notice, refused, other⟩
    · exact .inl ⟨_, job, .demo known named⟩
    · exact .inr ⟨notice, refused, .program rfl other.1 other.2⟩
  · by_cases scan : command = "scan"
    · subst scan
      rcases scan_named (operands rest) with
        ⟨wanted, job, some, named⟩ | ⟨notice, refused, none | ⟨name, mem, none⟩⟩
      · exact .inl ⟨_, job, .scan known some named⟩
      · exact .inr ⟨notice, refused, .noKind rfl none⟩
      · exact .inr ⟨notice, refused, .kind rfl mem (not_kindName_of_ofName? none)⟩
    · refine .inr ⟨.unknownCommand command, ?_, .command demo scan⟩
      simp only [asked, Job.ofArguments, if_neg demo, if_neg scan]

/-- A command line is parsed to what it asks for, or it is malformed and refused. -/
lemma Order.parse_cases (argv : List String) :
    (∃ order, Order.parse argv = .ok order ∧ Asks argv order) ∨
      ∃ notice, Order.parse argv = .error notice ∧ Malformed argv := by
  cases argv with
  | nil => exact .inr ⟨.usage, rfl, .empty⟩
  | cons command rest =>
    rw [parse_cons]
    cases stray : stray? rest with
    | some word =>
      obtain ⟨mem, option, unknown⟩ := Arguments.stray_of_stray? stray
      exact .inr ⟨.unknownOption word, rfl, .option mem option unknown⟩
    | none =>
      rcases ofArguments_cases command stray with ⟨job, parsed, asks⟩ | ⟨notice, refused, malformed⟩
      · exact .inl ⟨_, by simp only [parsed]; rfl, asks⟩
      · exact .inr ⟨notice, by simp only [refused]; rfl, malformed⟩

/-- No command line is malformed that asks for an order. -/
lemma Asks.not_malformed {argv order} (asks : Asks argv order) : ¬ Malformed argv := by
  have known : ∀ {rest word}, stray? rest = none → word ∈ rest → isOption word = true →
      word = "--verbose" := fun none => Arguments.stray?_eq_none_iff.mp none _
  intro malformed
  cases asks with
  | @demo rest program none named =>
    cases malformed with
    | option mem option unknown => exact unknown (known none mem option)
    | command demo => exact demo rfl
    | program _ string fraction =>
      cases program with
      | string => exact string named
      | fraction => exact fraction named
    | noKind scan | kind scan => exact absurd scan (by decide)
  | @scan rest kinds none some named =>
    cases malformed with
    | option mem option unknown => exact unknown (known none mem option)
    | command _ scan => exact scan rfl
    | program demo => exact absurd demo (by decide)
    | noKind _ empty =>
      rw [named, List.map_eq_nil_iff] at empty
      exact some empty
    | kind _ mem other =>
      rw [named] at mem
      obtain ⟨kind, -, rfl⟩ := List.mem_map.mp mem
      cases kind <;> exact absurd other (by decide)

/-- Every kind is found by its name. -/
lemma ofName?_kindName (kind : Kind) : Kind.ofName? kind.name = some kind := by
  cases kind <;> rfl

/-- The names of kinds are taken for these kinds. -/
lemma kinds_names (wanted : List Kind) :
    kinds (wanted.map Kind.name) = .ok wanted := by
  induction wanted with
  | nil => rfl
  | cons kind rest ih => rw [List.map_cons, kinds, ofName?_kindName, ih]; rfl

/-- What a command line asks for is what it is parsed to. -/
lemma Asks.parse {argv order} (asks : Asks argv order) : Order.parse argv = .ok order := by
  cases asks with
  | @demo rest program known named =>
    rw [Order.parse_cons, known, named]
    cases program <;> rfl
  | @scan rest wanted known some named =>
    obtain ⟨kind, others, rfl⟩ := List.exists_cons_of_ne_nil some
    have scanned : Job.scan? (operands rest) = .ok (.scan (kind :: others)) := by
      rw [named, List.map_cons, scan?_cons, ← List.map_cons, kinds_names]
      rfl
    rw [Order.parse_cons, known]
    simp only [Job.ofArguments, scanned]
    rfl

/-! ## Exit codes -/

/-- What only prints keeps a console steady. -/
lemma Prints.keeps {α : Type} {x : Console.Action α} (prints : Prints x) :
    Keeps Console.Steady x := by
  induction prints with
  | @value α outcome there =>
    cases outcome with
    | ok a => exact .pure a
    | error => cases there
  | write v => exact Console.keeps_emit _
  | writeLine v => exact Console.keeps_writeLine v
  | flush => exact Console.keeps_flush
  | bind _ _ first rest => exact first.bind rest

/-- A branch is to keep a console steady behind an error alone, since it gets to see no abort. -/
lemma keeps_branch {α β : Type} {x : Console.Action α} {f : α → Console.Action β}
    {g : Failure → Console.Action β} (first : Keeps Console.Steady x)
    (rest : ∀ a, Keeps Console.Steady (f a))
    (closing : ∀ error, Keeps Console.Steady (g (.error error))) :
    Keeps Console.Steady (Console.branch x f g) := by
  intro c steady
  have went := first c steady
  unfold Console.branch
  generalize x c = result at went
  cases went with
  | ok steady => exact rest _ _ steady
  | error steady => exact closing _ _ steady

namespace Scan

/-- An echo keeps a console steady. -/
lemma keeps_echo (kind : Kind) : Keeps Console.Steady (echo kind) :=
  (Console.keeps_read kind).bind fun v => Console.keeps_writeLine v

/-- Closing a scan at an error keeps a console steady. -/
lemma keeps_close (error : Error) : Keeps Console.Steady (close (.error error)) := by
  intro c steady
  have flushed := Console.keeps_flush c steady
  simp only [close]
  generalize Console.flush c = result at flushed
  -- the error is reported whatever the flush gives
  cases flushed with
  | ok steady | error steady => exact .error steady

/-- A scan keeps a console steady. -/
lemma keeps_action (kinds : List Kind) : Keeps Console.Steady (action kinds) := by
  induction kinds with
  | nil =>
    rw [action_nil]
    exact Console.keeps_flush
  | cons kind rest ih =>
    rw [action_cons]
    exact keeps_branch (keeps_echo kind) (fun _ => ih) keeps_close

end Scan

/-- On a steady console no job aborts. -/
lemma keeps_job (job : Job) : Keeps Console.Steady job.action := by
  cases job with
  | demo program => exact (prints_program program).keeps
  | scan kinds => exact Scan.keeps_action kinds

/-- The exit code of an order tells whether its job succeeds, and is never that of a refusal. -/
lemma Order.run_code (order : Order) {c : Console} (steady : c.Steady) :
    ((order.run c).code = 0 ∨ (order.run c).code = 1) ∧
      ((order.run c).code = 0 ↔ Result.outcome (order.job.action c) = .ok ()) := by
  have orderly := keeps_job order.job c steady
  rw [(order.run_job c).2]
  generalize order.job.action c = result at orderly
  cases orderly with
  | ok => exact ⟨.inl rfl, by simp [exitCode, Result.outcome]⟩
  | error => exact ⟨.inr rfl, by simp [exitCode, Result.outcome]⟩

section

variable {argv : List String} {autoflush : Option (List UInt8)} {source : Source} {sink : Sink}

/-- A refusal touches no stream. -/
lemma run_of_refused {notice : Notice} (refused : Order.parse argv = .error notice) :
    run argv autoflush source sink = ⟨2, ⟨source, sink, configuration autoflush⟩, [notice]⟩ := by
  simp only [run, refused]

/-- A command line that is parsed runs as its order does. -/
lemma run_of_parsed {order : Order} (parsed : Order.parse argv = .ok order) :
    run argv autoflush source sink = order.run ⟨source, sink, configuration autoflush⟩ := by
  simp only [run, parsed]

end

/-- The command exits with 2 on the malformed command lines and no others, and then leaves both
streams as they are. On the others it carries out what they ask for and exits with 0 or 1, as that
succeeds or not. -/
theorem run_grammar (argv : List String) (autoflush : Option (List UInt8)) (source : Source)
    (sink : Sink) (calm : source.Steady) (able : sink.Steady) :
    let console : Console := { source, sink, config := configuration autoflush }
    let completion := run argv autoflush source sink
    (completion.code = 2 ↔ Malformed argv) ∧
      (Malformed argv → completion.console = console) ∧
      (¬ Malformed argv → ∃ order, Asks argv order ∧
        (completion.code = 0 ∨ completion.code = 1) ∧
        (completion.code = 0 ↔ Result.outcome (order.job.action console) = .ok ())) := by
  intro console completion
  have steady : console.Steady := ⟨calm, able⟩
  rcases Order.parse_cases argv with ⟨order, parsed, asks⟩ | ⟨notice, refused, malformed⟩
  · have carried : completion = order.run console := run_of_parsed parsed
    have codes := order.run_code steady
    rw [carried]
    refine ⟨⟨fun two => ?_, fun malformed => absurd malformed asks.not_malformed⟩,
      fun malformed => absurd malformed asks.not_malformed, fun _ => ⟨order, asks, codes⟩⟩
    rcases codes.1 with zero | one
    · cases two.symm.trans zero
    · cases two.symm.trans one
  · have stopped : completion = ⟨2, console, [notice]⟩ := run_of_refused refused
    rw [stopped]
    exact ⟨⟨fun _ => malformed, fun _ => rfl⟩, fun _ => rfl, fun well => absurd malformed well⟩

/-- A kind that is none is found out behind one that could be read. -/
theorem run_grammar_late :
    let argv := ["scan", "int", "--verbose", "double"]
    let source := Source.ofEvents [.data 0x31 [0x0A]]
    let completion := run argv none source {}
    source.Steady ∧ Sink.Steady {} ∧ completion.code = 2 ∧ completion.console.source = source ∧
      completion.console.sink.log = [] := by
  intro argv source completion
  have calm : source.Steady := by simp [source, Source.Steady, Source.ofEvents]
  have able : Sink.Steady {} := ⟨by simp, by simp⟩
  have named : "double" ∈ operands ["int", "--verbose", "double"] := by decide
  have malformed : Malformed argv := .kind rfl named (by decide)
  obtain ⟨code, untouched, -⟩ := run_grammar argv none source {} calm able
  refine ⟨calm, able, code.mpr malformed, ?_, ?_⟩
  · rw [untouched malformed]
  · rw [untouched malformed]

end Teletype.Command
