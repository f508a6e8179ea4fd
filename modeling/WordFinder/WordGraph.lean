import WordFinder.Walk.Pattern
import WordFinder.Walk.Rack

/-!
# Word graphs

The words of a vocabulary in two tries, once as spelled and once reversed, so that a pattern can be
walked from whichever end is fixed.
-/
set_option autoImplicit false

namespace WordFinder

structure WordGraph where
  forward : Trie := .nil
  backward : Trie := .nil
deriving Repr

namespace WordGraph

def empty : WordGraph := {}

def insert (g : WordGraph) (word : String) : WordGraph where
  forward := g.forward.insert word.toList
  backward := g.backward.insert (SearchString.reversed word).toList

def ofWords (words : List String) : WordGraph :=
  words.foldl insert empty

def contains (g : WordGraph) (word : String) : Bool :=
  g.forward.contains word.toList

def containsReversed (g : WordGraph) (spelling : String) : Bool :=
  g.backward.contains spelling.toList

def wordCount (g : WordGraph) : Nat :=
  g.forward.wordCount

def patternMatches (g : WordGraph) (p : Pattern) (limits : WalkLimits) : MatchSet :=
  p.matchesInBoth limits g.forward g.backward

def rackMatches (g : WordGraph) (rack : Rack) (subanagram : Bool) (limits : WalkLimits) : MatchSet :=
  rack.wordsIn subanagram limits g.forward

end WordGraph

end WordFinder
