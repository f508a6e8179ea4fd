import WordFinder.Search.Verdict

/-!
# What is known about a word

The reports on single words: whether a word is in a lexicon, its definition, and its hooks, counts,
probability and groups.
-/
set_option autoImplicit false

namespace WordFinder

structure WordCheck where
  word : String
  valid : Bool
deriving DecidableEq, Repr

structure WordDefinition where
  word : String
  valid : Bool
  definition? : Option String
deriving DecidableEq, Repr

structure WordInfo where
  word : String
  valid : Bool
  frontHooks : String
  backHooks : String
  alphagram : String
  anagrams : Nat
  vowels : Nat
  uniqueLetters : Nat
  points : Nat
  /-- The probability of drawing the word, times 10^9. -/
  probability : Float
  rank? : Option Nat
  groups : List WordGroup

/-- How many blanks a draw may hold in reports on a word. -/
def infoBlanks : Int32 := 2

namespace Lexicon

def check (x : Lexicon) (words : List String) : List WordCheck :=
  words.map fun word => ⟨Text.upper word, x.contains word⟩

def define (x : Lexicon) (word : String) : WordDefinition :=
  ⟨Text.upper word, x.contains word, x.definition? word⟩

/-- Everything known about a word. Rank and groups are told for words of the lexicon only. -/
def info (x : Lexicon) (word : String) : WordInfo :=
  let word := Text.upper word
  let valid := x.contains word
  { word, valid
    frontHooks := x.frontHooks word
    backHooks := x.backHooks word
    alphagram := WordFinder.alphagram word
    anagrams := x.anagramCount word
    vowels := WordFinder.vowelCount word
    uniqueLetters := WordFinder.uniqueLetterCount word
    points := WordFinder.pointValue word
    probability := x.bag.probability word infoBlanks
    rank? := if valid then (x.orderOfLength word.length infoBlanks).rank? word else none
    groups := if valid then x.groupsOf word else [] }

end Lexicon

def allValid (checks : List WordCheck) : Bool :=
  checks.all (·.valid)

end WordFinder
