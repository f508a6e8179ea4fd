import WordFinder.Glossary
import WordFinder.Log
import WordFinder.Tile.Distribution
import WordFinder.WordGraph
import WordFinder.WordList

/-!
# Lexicons

A lexicon is a vocabulary with the definitions of its words, the stems that some groups of words are
built on, and the bag of tiles that its words are drawn from. Words are stored in upper case and
have one to fifteen letters.
-/
set_option autoImplicit false

namespace WordFinder

structure Lexicon where
  name : String
  bag : TileBag
  graph : WordGraph := .empty
  glossary : Glossary := .empty
  stems : List String := []

namespace Lexicon

def defaultName : String := "Custom"

def create (name distribution : String) : Except BagFailure Lexicon := do
  return { name, bag := ← TileBag.ofDistribution distribution }

def wordCount (x : Lexicon) : Nat :=
  x.graph.wordCount

def contains (x : Lexicon) (word : String) : Bool :=
  x.graph.contains (Text.upper word)

/-- A word as it is stored, if it can be. -/
def acceptable? (word : String) : Option String :=
  let stored := Text.upper word
  if 0 < stored.length && stored.length ≤ maxWordLength && stored.toList.all Char.isUpper then
    some stored
  else none

def addWord? (x : Lexicon) (word : String) (definition? : Option String) : Option Lexicon :=
  (acceptable? word).map fun stored =>
    { x with
      graph := x.graph.insert stored
      glossary := match definition? with
        | some definition => x.glossary.insert stored definition
        | none => x.glossary }

def addEntries (x : Lexicon) (entries : List WordListEntry) (withDefinitions : Bool) :
    Lexicon × Nat :=
  entries.foldl
    (fun (x, count) entry =>
      match x.addWord? entry.word (if withDefinitions then some entry.definition else none) with
      | some larger => (larger, count + 1)
      | none => (x, count))
    (x, 0)

def addText (x : Lexicon) (text : String) (withDefinitions : Bool) : Lexicon × Nat :=
  x.addEntries (WordListEntry.ofText text) withDefinitions

/-- What the import of a word list into a lexicon logs: each word that is not acceptable, then how many
were and what the lexicon holds now. -/
def textLog (larger : Lexicon) (text : String) (imported : Nat) : List LogRecord :=
  let skipped := (WordListEntry.ofText text).filter fun entry => (acceptable? entry.word).isNone
  (skipped.map fun entry => .ofEngine .warn "skipping invalid word"
      [("word", Text.upper entry.word), ("max_len", toString maxWordLength)])
    ++ [.ofEngine .info "imported word list"
      [("imported", toString imported), ("total", toString larger.wordCount),
        ("lexicon", larger.name)]]

/-- The length by which a stem is filed: that of its encoding. -/
def stemLength (stem : String) : Nat :=
  stem.utf8ByteSize

def uniformStems (entries : List WordListEntry) : List String :=
  match entries.map (·.word) with
  | [] => []
  | first :: rest => first :: rest.filter (stemLength · == stemLength first)

/-- The lexicon with the stems of a list, and their number. Stems that are not as long as the first
are skipped. -/
def addStems (x : Lexicon) (text : String) : Lexicon × Nat :=
  let added := uniformStems (WordListEntry.ofText text)
  ({ x with stems := x.stems ++ added }, added.length)

/-- What the import of a list of stems logs: each stem that is skipped, then how many were not. -/
def stemLog (text : String) (added : Nat) : List LogRecord :=
  match (WordListEntry.ofText text).map (·.word) with
  | [] => []
  | first :: rest =>
    let skipped := rest.filter (stemLength · != stemLength first)
    (skipped.map fun stem => .ofEngine .warn "skipping stem of different length"
        [("stem", stem), ("expected", toString (stemLength first))])
      ++ [.ofEngine .info "imported stems"
        [("imported", toString added), ("length", toString (stemLength first))]]

def stemsOfLength (x : Lexicon) (length : Nat) : List String :=
  x.stems.filter (stemLength · == length)

def definition? (x : Lexicon) (word : String) : Option String :=
  let stored := Text.upper word
  if x.glossary.contains stored then some (x.glossary.definition stored) else none

/-- The letters that make a word when put before a word, in lower case. -/
def frontHooks (x : Lexicon) (word : String) : String :=
  let hooks := alphabet.filter fun c => x.graph.contains (.singleton c ++ Text.upper word)
  .ofList (hooks.map Char.toLower)

/-- The letters that make a word when put after a word, in lower case. -/
def backHooks (x : Lexicon) (word : String) : String :=
  let hooks := alphabet.filter fun c => x.graph.contains (Text.upper word ++ .singleton c)
  .ofList (hooks.map Char.toLower)

def anagramCount (x : Lexicon) (word : String) : Nat :=
  match Rack.ofString? (alphagram (Text.upper word)) with
  | some rack => (x.graph.rackMatches rack false {}).size
  | none => 0

def wordsWithin (x : Lexicon) (limits : WalkLimits) : MatchSet :=
  .ofSpellings (x.graph.patternMatches ⟨[.star]⟩ limits).words

def wordsOfLength (x : Lexicon) (length : Nat) : List String :=
  if 0 < length && length ≤ maxWordLength then
    (x.graph.patternMatches ⟨List.replicate length .any⟩ {}).words
  else []

end Lexicon

def alphagrams (words : List String) : List String :=
  ((words.map fun word => alphagram (Text.upper word)).mergeSort fun a b => a ≤ b).eraseDups

end WordFinder
