import Std.Data.TreeMap
import Std.Data.TreeMap.Lemmas
import WordFinder.Text.Case

/-!
# Match sets

The words that a search has found. Each word has a marked spelling in which the letters that a
wildcard supplied are in lower case; the word itself is the upper-case form of that spelling. A word
keeps the first spelling found for it, except that an exact spelling, without marks, replaces any
other.

Words are listed in ascending order.
-/
set_option autoImplicit false

namespace WordFinder

structure MatchSet where
  spellings : Std.TreeMap String String
  keyed : ∀ word marked, spellings[word]? = some marked → Text.upper marked = word

namespace MatchSet

def empty : MatchSet :=
  ⟨∅, by simp⟩

def contains (s : MatchSet) (word : String) : Bool :=
  s.spellings.contains word

def size (s : MatchSet) : Nat :=
  s.spellings.size

def isEmpty (s : MatchSet) : Bool :=
  s.spellings.isEmpty

def entries (s : MatchSet) : List (String × String) :=
  s.spellings.toList

def words (s : MatchSet) : List String :=
  s.entries.map Prod.fst

def markedSpellings (s : MatchSet) : List String :=
  s.entries.map Prod.snd

def put (s : MatchSet) (marked : String) : MatchSet where
  spellings := s.spellings.insert (Text.upper marked) marked
  keyed word spelling h := by
    rw [Std.TreeMap.getElem?_insert] at h
    split at h
    · next heq => cases h; exact Std.LawfulEqCmp.eq_of_compare heq
    · exact s.keyed word spelling h

def insert (s : MatchSet) (marked : String) : MatchSet :=
  if s.contains (Text.upper marked) && marked != Text.upper marked then s else s.put marked

def ofSpellings (spellings : List String) : MatchSet :=
  spellings.foldl insert empty

def filter (s : MatchSet) (keep : String → Bool) : MatchSet where
  spellings := s.spellings.filter fun word _ => keep word
  keyed word marked h := by
    rw [Std.TreeMap.getElem?_filter] at h
    obtain ⟨h, _⟩ := Option.pfilter_eq_some_iff.1 h
    exact s.keyed word marked h

/-- The words of both sets, each with its exact spelling if one of the sets has that and with its
spelling in `s` otherwise. -/
def inter (s t : MatchSet) : MatchSet :=
  (t.markedSpellings.filter fun marked => s.contains (Text.upper marked)).foldl insert
    (s.filter t.contains)

/-- The words of either set, each with its exact spelling if one of the sets has that and with its
spelling in `s` before that in `t` otherwise. -/
def union (s t : MatchSet) : MatchSet :=
  t.markedSpellings.foldl insert s

end MatchSet

end WordFinder
