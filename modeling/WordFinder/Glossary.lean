import Std.Data.TreeMap
import WordFinder.Glossary.Link
import WordFinder.Text.Blank
import WordFinder.Text.Case

/-!
# Glossaries

The definitions of words. A definition is a list of entries divided by ` / `; the entries of a word
are kept in the order of their parts of speech, and in their own order within one. When a definition
is shown, links in it are expanded up to a fixed depth.
-/
set_option autoImplicit false

namespace WordFinder

structure Glossary where
  entriesOf : Std.TreeMap String (List String) := ∅

namespace Glossary

/-- How many links deep a definition is expanded. -/
def maxLinkDepth : Nat := 3

def empty : Glossary := {}

/-- Entries filed under their parts of speech; those of one part stay in the order they come in. -/
def filed (entries : List String) : Std.TreeMap String (List String) :=
  entries.foldl (fun parts entry =>
    parts.insert (partOfSpeech entry) (parts.getD (partOfSpeech entry) [] ++ [entry])) ∅

def sortedEntries (entries : List String) : List String :=
  (filed entries).toList.flatMap Prod.snd

/-- The glossary with a definition in the place of any earlier one of the word. A definition of
white space only changes nothing. -/
def insert (g : Glossary) (word definition : String) : Glossary :=
  let text := Text.trim definition
  if word.isEmpty || text.isEmpty then g
  else ⟨g.entriesOf.insert word (sortedEntries (Text.splitOn " / " text))⟩

def contains (g : Glossary) (word : String) : Bool :=
  g.entriesOf.contains word

def size (g : Glossary) : Nat :=
  g.entriesOf.size

def entries (g : Glossary) (word : String) : List String :=
  (g.entriesOf[word]?).getD []

def entriesFor (g : Glossary) (word pos : String) : List String :=
  (g.entries word).filter (partOfSpeech · == pos)

def hasPartOfSpeech (g : Glossary) (word pos : String) : Bool :=
  (g.entries word).any (partOfSpeech · == pos)

def linkText (l : DefinitionLink) (entries : List String) : String :=
  let word := Text.fullUpper l.word
  if entries.isEmpty then word
  else
    let text := "; ".intercalate entries
    if l.showsWord then word ++ ", " ++ text else text

/-- An entry with its links expanded up to a depth. A link to nothing, or below that depth, shows
the word alone. -/
def expand (g : Glossary) : Nat → String → String
  | 0, entry => String.join ((definitionPieces entry).map fun
    | .plain c => .singleton c
    | .link l => linkText l [])
  | depth + 1, entry => String.join ((definitionPieces entry).map fun
    | .plain c => .singleton c
    | .link l =>
      linkText l ((g.entriesFor (Text.fullUpper l.word) l.partOfSpeech).map (g.expand depth)))

def definition (g : Glossary) (word : String) : String :=
  "\n".intercalate ((g.entries word).map (g.expand maxLinkDepth))

end Glossary

end WordFinder
