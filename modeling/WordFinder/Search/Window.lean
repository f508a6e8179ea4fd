import WordFinder.Letter

/-!
# Windows

A window is a range of numbers that a property of a word has to lie in. A search keeps one window
for each property that words of a lexicon bound: length, vowels, different letters, points and
anagrams.
-/
set_option autoImplicit false

namespace WordFinder

structure Window where
  min : Int32
  max : Int32
deriving DecidableEq, Repr

namespace Window

def upTo (bound : Int32) : Window := ⟨0, bound⟩

def tighten (w : Window) (min max : Int32) : Window :=
  ⟨Max.max w.min min, Min.min w.max max⟩

def isNarrowerThan (w : Window) (bound : Int32) : Bool :=
  w.min > 0 || w.max < bound

def isNonempty (w : Window) : Bool :=
  w.min ≤ w.max

end Window

def lengthBound : Int32 := .ofNat maxWordLength

/-- One more than any length. -/
def beyondLengths : Int32 := lengthBound + 1

/-- One more than the value of any word, since no tile is worth more than ten. -/
def beyondPoints : Int32 := 10 * lengthBound + 1

/-- The largest number of anagrams that a search can ask for. -/
def anagramBound : Int32 := 65535

structure Windows where
  lengths : Window := .upTo beyondLengths
  vowels : Window := .upTo beyondLengths
  uniqueLetters : Window := .upTo beyondLengths
  points : Window := .upTo beyondPoints
  anagrams : Window := .upTo anagramBound
deriving DecidableEq, Repr

namespace Windows

def lengthsPossible (w : Windows) : Bool :=
  w.lengths.min ≤ lengthBound && w.lengths.max > 0 && w.lengths.isNonempty

def vowelsPossible (w : Windows) : Bool :=
  w.vowels.min ≤ lengthBound && w.vowels.max ≥ 0 && w.vowels.isNonempty

def uniqueLettersPossible (w : Windows) : Bool :=
  w.uniqueLetters.min ≤ lengthBound && w.uniqueLetters.max > 0 && w.uniqueLetters.isNonempty

def pointsPossible (w : Windows) : Bool :=
  w.points.min < beyondPoints && w.points.max > 0 && w.points.isNonempty

def anagramsPossible (w : Windows) : Bool :=
  w.anagrams.min ≤ anagramBound && w.anagrams.max > 0 && w.anagrams.isNonempty

/-- Whether words of a length in its window can have vowels, letters and points in theirs. -/
def areConsistent (w : Windows) : Bool :=
  !(w.vowels.min > w.lengths.max || w.uniqueLetters.min > w.lengths.max
    || w.points.min > 10 * w.lengths.max || w.points.max < w.lengths.min)

end Windows

end WordFinder
