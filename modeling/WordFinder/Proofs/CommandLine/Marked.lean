import Mathlib
import WordFinder.CommandLine
import WordFinder.Proofs.CommandLine.Arguments
import WordFinder.Proofs.Report.Columns

/-!
# Marks on the command line

A search that marks letters differs from one that does not in what it shows only. Two runs are
compared: they load the same lexicon, log the same records, fail in the same way, save the same search
and, where colours are off, print the same report.
-/
set_option autoImplicit false

namespace WordFinder

/-! ## Scripts that do the same -/

namespace Script

/-- Two scripts do the same in a world, whatever is let into the log and was logged before. -/
def Alike (w : World) (s t : Script) : Prop :=
  ∀ l : Log, s.runFrom w l = t.runFrom w l

variable {w : World} {s t : Script}

theorem Alike.refl (s : Script) : Alike w s s :=
  fun _ => rfl

theorem Alike.print (text : String) (same : Alike w s t) :
    Alike w (.print text s) (.print text t) := by
  intro l
  rw [runFrom, runFrom, same l]

theorem Alike.log (record : LogRecord) (same : Alike w s t) :
    Alike w (.log record s) (.log record t) := by
  intro l
  rw [runFrom, runFrom, same l, same { l with lines := l.lines + 1 }]

theorem Alike.logAll (records : List LogRecord) (same : Alike w s t) :
    Alike w (logAll records s) (logAll records t) := by
  induction records with
  | nil => exact same
  | cons record records ih => exact ih.log record

theorem Alike.readText (file : String) {next other : Except FileError String → Script}
    (same : ∀ content, Alike w (next content) (other content)) :
    Alike w (readText file next) (readText file other) :=
  fun l => same _ l

theorem Alike.save (file text : String) {next other : Except FileError Unit → Script}
    (same : ∀ outcome, Alike w (next outcome) (other outcome)) :
    Alike w (.save file text next) (.save file text other) := by
  intro l
  rw [runFrom, runFrom, same _ l]

end Script

namespace CommandLine

open Script (Alike)

variable {w : World}

theorem alike_showSearch (x : Lexicon) (spec : SearchSpec) :
    Alike w (showSearch false true x spec) (showSearch false false x spec) := by
  have shown : Report.found false true spec.text (x.find spec).markedSpellings w.stopwatch =
      Report.found false false spec.text (x.find spec).words w.stopwatch := by
    rw [Report.found_marked, MatchSet.map_upper_markedSpellings]
  intro l
  refine Alike.logAll (x.searchLog spec (x.find spec)) ?_ l
  intro l
  simp only [Script.runFrom, if_true, Bool.false_eq_true, if_false, shown]

theorem alike_saveSearch (spec : SearchSpec) (file? : Option String) {next other : Script}
    (same : Alike w next other) :
    Alike w (saveSearch spec file? next) (saveSearch spec file? other) := by
  cases file? with
  | none => exact same
  | some file =>
    refine Alike.save file spec.xml fun outcome => ?_
    cases outcome with
    | error cause => exact .refl _
    | ok _ => exact same.print _

theorem alike_loadStems {next other : Lexicon → Nat → Script}
    (same : ∀ x count, Alike w (next x count) (other x count)) (x : Lexicon) (count : Nat)
    (files : List String) : Alike w (loadStems x count next files) (loadStems x count other files) := by
  induction files generalizing x count with
  | nil => exact same x count
  | cons file files ih =>
    refine Alike.readText file fun content => ?_
    cases content with
    | error cause => exact .refl _
    | ok text => exact (ih _ _).logAll _

theorem alike_load (colours : Bool) (i : Invocation) {next other : Lexicon → Script}
    (same : ∀ x, Alike w (next x) (other x)) : Alike w (load colours i next) (load colours i other) := by
  rw [load, load]
  cases Lexicon.create i.lexicon i.distribution with
  | error failure => cases failure <;> exact .refl _
  | ok x =>
    cases i.wordlist? with
    | none => exact .refl _
    | some file =>
      refine Alike.readText file fun content => ?_
      cases content with
      | error cause => exact .refl _
      | ok text =>
        exact (alike_loadStems (fun x stems => (same x).print _) _ _ _).logAll _

/-! ## The two runs -/

theorem alike_search (x : Lexicon) (r : SearchRequest) :
    Alike w (search false x { r with marked := true }) (search false x { r with marked := false }) := by
  rw [search, search]
  cases r.specFile? with
  | none =>
    cases r.options.spec with
    | error e => exact .refl _
    | ok spec => exact alike_saveSearch spec r.saveFile? (alike_showSearch x spec)
  | some file =>
    refine Alike.readText file fun content => ?_
    cases SearchSpec.ofFile file content with
    | error e => exact .refl _
    | ok spec => exact alike_saveSearch spec r.saveFile? (alike_showSearch x spec)

/-- Two command lines that ask for the same search, one of them with marks, do the same in any world
where colours are off: they print, log and save the same texts and exit with the same status. Whatever
the log lets through, its lines stand in the same places and say the same. -/
theorem run_script_marked (w : World) {args markedArgs : List String} {i : Invocation}
    {r : SearchRequest}
    (plain : Invocation.ofArguments args = .ok { i with command := .search { r with marked := false } })
    (marked : Invocation.ofArguments markedArgs =
      .ok { i with command := .search { r with marked := true } }) :
    (script false markedArgs).run w = (script false args).run w := by
  rw [script, script, plain, marked]
  exact alike_load false i (fun x => alike_search x r) _

/-- A disk with one word list, which has two words and a line that is none, and a log that shows the
time of each line. -/
def shelf : World where
  content file := if file = "words.txt" then .ok "act\nc4t\ncat\n".toUTF8 else .error .notFound
  writable _ := .ok ()
  stopwatch := "0.1"
  logFilter? := none
  clock n := "10:0" ++ toString n
  logLine := LogRecord.line

/-- The words that end in `AT`, asked for with and without marks, where one line of the word list is
warned about. -/
theorem run_script_marked_at :
    (script false ["-w", "words.txt", "search", "--marked", "-p", "?at"]).run shelf =
      (script false ["-w", "words.txt", "search", "-p", "?at"]).run shelf := by
  let i : Invocation := {
    command := .check []
    wordlist? := some "words.txt"
    stems := []
    lexicon := Lexicon.defaultName
    distribution := TileBag.standardDistribution
    verbose := false }
  let r : SearchRequest := {
    options := { pattern := some "?at" }
    specFile? := none
    saveFile? := none
    marked := false }
  have asked : Invocation.ofArguments ["-w", "words.txt", "search", "-p", "?at"] =
      .ok { i with command := .search { r with marked := false } } := rfl
  exact run_script_marked shelf asked (Invocation.ofArguments_marked (.inl rfl) rfl rfl asked)

end CommandLine

end WordFinder
