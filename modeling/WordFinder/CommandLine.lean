import WordFinder.CommandLine.Arguments
import WordFinder.CommandLine.Script
import WordFinder.Report.Display
import WordFinder.Search

/-!
# The command line

A command loads a lexicon from a word list and lists of stems, says what it has loaded, and then
checks words, searches, or reports on one word. The first thing that fails ends it.
-/
set_option autoImplicit false

namespace WordFinder.CommandLine

def versionText : String := "lexicon_search 1.0.0\n"

def helpText : String :=
  "Word search over a lexicon: patterns, anagrams, subanagrams and word properties\n\n" ++
  "Usage: lexicon_search [OPTIONS] <COMMAND>\n\n" ++
  "Commands:\n" ++
  "  check   Check whether words are in the lexicon\n" ++
  "  search  Search the lexicon\n" ++
  "  define  Show a word's definition\n" ++
  "  info    Show hooks, anagrams, probability and groups of a word\n"

def usageText : String := "error: the arguments are not a command; see --help\n"

def stoppedText : String := "thread 'main' panicked: capacity overflow\n"

def failImport (file : String) (cause : FileError) : Script :=
  .log (.ofEngine .warn "import failed" [("path", file), ("error", cause.message)])
    (.fail (.importFailed file cause))

def loadStems (x : Lexicon) (count : Nat) (next : Lexicon → Nat → Script) : List String → Script
  | [] => next x count
  | file :: files =>
    .readText file fun
      | .error cause => failImport file cause
      | .ok text =>
        let (larger, added) := x.addStems text
        .logAll (Lexicon.stemLog text added) (loadStems larger (count + added) next files)

def load (colours : Bool) (i : Invocation) (next : Lexicon → Script) : Script :=
  match Lexicon.create i.lexicon i.distribution with
  | .error .tableTooLong => .printError stoppedText (.exit 101)
  | .error (.unreadable cause) => .fail (.invalidDistribution cause)
  | .ok x =>
    match i.wordlist? with
    | none => .fail .noWordList
    | some file =>
      .readText file fun
        | .error cause => failImport file cause
        | .ok text =>
          let (larger, imported) := x.addText text true
          .logAll (larger.textLog text imported) (loadStems larger 0
            (fun x stems => .print (Report.loaded colours x stems) (next x)) i.stems)

def showSearch (colours marked : Bool) (x : Lexicon) (spec : SearchSpec) : Script :=
  .start fun _ =>
    let found := x.find spec
    let words := if marked then found.markedSpellings else found.words
    .logAll (x.searchLog spec found) (.elapsed fun time =>
      .print (Report.found colours marked spec.text words time) (.exit 0))

def saveSearch (spec : SearchSpec) (file? : Option String) (next : Script) : Script :=
  match file? with
  | none => next
  | some file =>
    .save file spec.xml fun
      | .error cause => .fail (.searchUnwritable file cause)
      | .ok _ => .print ("💾 Saved search to " ++ file ++ "\n") next

def search (colours : Bool) (x : Lexicon) (r : SearchRequest) : Script :=
  let run := fun
    | .error e => Script.fail e
    | .ok spec => saveSearch spec r.saveFile? (showSearch colours r.marked x spec)
  match r.specFile? with
  | some file => .readText file fun content => run (SearchSpec.ofFile file content)
  | none => run r.options.spec

def runCommand (colours : Bool) (x : Lexicon) : Command → Script
  | .check words =>
    let checks := x.check words
    .print (Report.checked colours checks) (.exit (if allValid checks then 0 else 1))
  | .search request => search colours x request
  | .define word => .print (Report.defined colours (x.define word)) (.exit 0)
  | .info word => .print (Report.described colours (x.info word)) (.exit 0)

def script (colours : Bool) (args : List String) : Script :=
  match Invocation.ofArguments args with
  | .ok i => .startLog i.verbose (load colours i fun x => runCommand colours x i.command)
  | .error .help => .print helpText (.exit 0)
  | .error .version => .print versionText (.exit 0)
  | .error .usage => .printError usageText (.exit 2)

end WordFinder.CommandLine
