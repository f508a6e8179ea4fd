import WordFinder.CommandLine.SearchOptions
import WordFinder.Lexicon

/-!
# Command line arguments

A command line has options that apply to every command, the name of a command, and the options and
words of that command. Options for every command may stand before or after its name. An option with
a value takes what follows it, either attached (`--length=3`, `-l3`, `-l=3`) or as the next argument
if that is not itself an option. Options of one letter may be joined (`-mv`), and after `--` nothing
is an option.
-/
set_option autoImplicit false

namespace WordFinder

structure Switch where
  long : String
  short? : Option Char
  takesValue : Bool := true
  isFile : Bool := false
  repeats : Bool := false
deriving DecidableEq, Repr

namespace Switch

def help : Switch := { long := "help", short? := 'h', takesValue := false }
def version : Switch := { long := "version", short? := 'V', takesValue := false }

def wordlist : Switch := { long := "wordlist", short? := 'w', isFile := true }
def stems : Switch := { long := "stems", short? := none, isFile := true, repeats := true }
def lexicon : Switch := { long := "lexicon", short? := none }
def distribution : Switch := { long := "distribution", short? := none }
def verbose : Switch := { long := "verbose", short? := 'v', takesValue := false }

def shared : List Switch := [wordlist, stems, lexicon, distribution, verbose, help]

def pattern : Switch := { long := "pattern", short? := 'p' }
def anagram : Switch := { long := "anagram", short? := 'a' }
def subanagram : Switch := { long := "subanagram", short? := 'b' }
def length : Switch := { long := "length", short? := 'l' }
def included : Switch := { long := "include", short? := 'i' }
def excluded : Switch := { long := "exclude", short? := 'x' }
def frontHook : Switch := { long := "prefix", short? := none }
def backHook : Switch := { long := "suffix", short? := none }
def group : Switch := { long := "group", short? := 'g' }
def any : Switch := { long := "any", short? := none, takesValue := false }
def spec : Switch := { long := "spec", short? := none, isFile := true }
def save : Switch := { long := "save", short? := none, isFile := true }
def marked : Switch := { long := "marked", short? := 'm', takesValue := false }

def searchOptions : List Switch :=
  [pattern, anagram, subanagram, length, included, excluded, frontHook, backHook, group, any]

end Switch

/-- What a part of the command line may hold: its options, how many words, and the names of
commands that end it. -/
structure Grammar where
  switches : List Switch
  maxWords : Option Nat
  commands : List String := []

/-- What was read of a part of the command line. -/
structure Given where
  /-- The options with their values, in order; an option without a value has an empty one. -/
  options : List (Switch × String) := []
  words : List String := []

namespace Given

def has (g : Given) (s : Switch) : Bool :=
  g.options.any (·.1 == s)

def values (g : Given) (s : Switch) : List String :=
  (g.options.filter (·.1 == s)).map Prod.snd

def value? (g : Given) (s : Switch) : Option String :=
  (g.values s).head?

end Given

/-- Why the arguments are not a command to run. -/
inductive Refusal where
  | usage
  | help
  | version
deriving DecidableEq, Repr

/-- How one part of the command line ends: at its end, or at the name of a command. -/
inductive Ending where
  | last
  | command (name : String) (rest : List String)

namespace Grammar

def addWord (g : Grammar) (given : Given) (word : String) : Except Refusal Given :=
  if g.maxWords.all (given.words.length < ·) then
    .ok { given with words := given.words ++ [word] }
  else .error .usage

def addOption (given : Given) (s : Switch) (value : String) : Except Refusal Given :=
  if s == .help then .error .help
  else if s == .version then .error .version
  else if (given.has s && !s.repeats) || (s.isFile && value.isEmpty) then .error .usage
  else .ok { given with options := given.options ++ [(s, value)] }

/-- Reads a long option, without its dashes. The option still awaiting its value is given back. -/
def readLong (g : Grammar) (given : Given) (text : String) :
    Except Refusal (Given × Option Switch) :=
  let (name, value?) := match Text.splitAtFirst '=' text with
    | some (name, value) => (name, some value)
    | none => (text, none)
  match g.switches.find? (·.long == name), value? with
  | none, _ => .error .usage
  | some s, some value =>
    if s.takesValue then return (← addOption given s value, none) else .error .usage
  | some s, none =>
    if s.takesValue then .ok (given, some s) else return (← addOption given s "", none)

/-- Reads options of one letter, without their dash. The option still awaiting its value is given
back. -/
def readShort (g : Grammar) (given : Given) :
    List Char → Except Refusal (Given × Option Switch)
  | [] => .ok (given, none)
  | c :: cs =>
    match g.switches.find? (·.short? == some c) with
    | none => .error .usage
    | some s =>
      if !s.takesValue then do g.readShort (← addOption given s "") cs
      else
        match cs with
        | [] => .ok (given, some s)
        | '=' :: value => return (← addOption given s (.ofList value), none)
        | value => return (← addOption given s (.ofList value), none)

/-- Reads arguments up to their end or to the name of a command, where an option may still await its
value. -/
def read (g : Grammar) : Given → Option Switch → List String → Except Refusal (Given × Ending)
  | given, none, [] => .ok (given, .last)
  | _, some _, [] => .error .usage
  | given, awaiting?, arg :: args =>
    if awaiting?.isNone && g.commands.contains arg then .ok (given, .command arg args)
    else
      match arg.toList, awaiting? with
      | ['-', '-'], none => return (← args.foldlM g.addWord given, .last)
      | '-' :: _ :: _, some _ => .error .usage
      | '-' :: '-' :: name, none => do
        let (given, awaiting?) ← g.readLong given (.ofList name)
        g.read given awaiting? args
      | '-' :: c :: letters, none => do
        let (given, awaiting?) ← g.readShort given (c :: letters)
        g.read given awaiting? args
      | _, some s => do g.read (← addOption given s arg) none args
      | _, none => do g.read (← g.addWord given arg) none args

end Grammar

structure SearchRequest where
  options : SearchOptions
  specFile? : Option String
  saveFile? : Option String
  marked : Bool
deriving DecidableEq, Repr

inductive Command where
  | check (words : List String)
  | search (request : SearchRequest)
  | define (word : String)
  | info (word : String)
deriving DecidableEq, Repr

structure Invocation where
  command : Command
  wordlist? : Option String
  stems : List String
  lexicon : String
  distribution : String
  verbose : Bool
deriving DecidableEq, Repr

namespace Invocation

def commandNames : List String := ["check", "search", "define", "info"]

def topGrammar : Grammar where
  switches := Switch.shared ++ [.version]
  maxWords := some 0
  commands := commandNames ++ ["help"]

def commandGrammar (name : String) : Grammar where
  switches :=
    if name = "search" then Switch.shared ++ Switch.searchOptions ++ [.spec, .save, .marked]
    else Switch.shared
  maxWords := if name = "check" then none else if name = "search" then some 0 else some 1

def searchRequest (given : Given) : Except Refusal SearchRequest :=
  if given.has .spec && Switch.searchOptions.any given.has then .error .usage
  else .ok {
    options := {
      pattern := given.value? .pattern
      anagram := given.value? .anagram
      subanagram := given.value? .subanagram
      length := given.value? .length
      included := given.value? .included
      excluded := given.value? .excluded
      frontHook := given.value? .frontHook
      backHook := given.value? .backHook
      group := given.value? .group
      any := given.has .any }
    specFile? := given.value? .spec
    saveFile? := given.value? .save
    marked := given.has .marked }

def readCommand (name : String) (given : Given) : Except Refusal Command :=
  match name, given.words with
  | "check", words => if words.isEmpty then .error .usage else .ok (.check words)
  | "search", _ => (searchRequest given).map .search
  | "define", [word] => .ok (.define word)
  | "info", [word] => .ok (.info word)
  | _, _ => .error .usage

def readHelp : List String → Refusal
  | [] => .help
  | [name] => if commandNames.contains name || name == "help" then .help else .usage
  | _ => .usage

/-- The values of an option for every command. Those given after the command win. -/
def sharedValues (top sub : Given) (s : Switch) : List String :=
  if sub.has s then sub.values s else top.values s

def ofArguments (args : List String) : Except Refusal Invocation := do
  match ← topGrammar.read {} none args with
  | (_, .last) => throw .usage
  | (_, .command "help" rest) => throw (readHelp rest)
  | (top, .command name rest) =>
    let (sub, _) ← (commandGrammar name).read {} none rest
    return {
      command := ← readCommand name sub
      wordlist? := (sharedValues top sub .wordlist).head?
      stems := sharedValues top sub .stems
      lexicon := (sharedValues top sub .lexicon).headD Lexicon.defaultName
      distribution := (sharedValues top sub .distribution).headD TileBag.standardDistribution
      verbose := !(sharedValues top sub .verbose).isEmpty }

end Invocation

end WordFinder
