import WordFinder.Tile.Bag

/-!
# Probability order

Words in order of the number of ways to draw them, most likely first. Words that are equally likely
come in order of their alphagrams and then of their spellings, so that anagrams stand together, or
in order of their spellings alone. Ranks count from one.
-/
set_option autoImplicit false

namespace WordFinder

structure RankedWord where
  /-- The number of ways to draw the word, without its fraction. -/
  draws : UInt64
  /-- What decides between equally likely words, before their spelling. -/
  tieBreak : String
  word : String
deriving DecidableEq, Repr

def RankedWord.le (a b : RankedWord) : Bool :=
  a.draws > b.draws ||
    (a.draws == b.draws &&
      (a.tieBreak < b.tieBreak || (a.tieBreak == b.tieBreak && a.word ≤ b.word)))

structure ProbabilityOrder where
  ranked : List RankedWord
deriving DecidableEq, Repr

namespace ProbabilityOrder

def dropRepeats : List RankedWord → List RankedWord
  | a :: b :: ranked => if a.word = b.word then dropRepeats (a :: ranked) else a :: dropRepeats (b :: ranked)
  | ranked => ranked
termination_by ranked => ranked.length

/-- The order of some words for a hand of up to `blanks` blanks. With `byAlphagram` off, ties are
broken by spelling alone. -/
def ofWords (bag : TileBag) (blanks : Int32) (byAlphagram : Bool) (words : List String) :
    ProbabilityOrder :=
  ⟨dropRepeats <| (words.map fun word =>
      ⟨(bag.combinations word blanks).toUInt64, if byAlphagram then alphagram word else "", word⟩).mergeSort
        RankedWord.le⟩

def words (o : ProbabilityOrder) : List String :=
  o.ranked.map (·.word)

def size (o : ProbabilityOrder) : Nat :=
  o.ranked.length

def find? (o : ProbabilityOrder) (word : String) : Option RankedWord :=
  o.ranked.find? (·.word == word)

def rank? (o : ProbabilityOrder) (word : String) : Option Nat :=
  (o.ranked.findIdx? (·.word == word)).map (· + 1)

def tieRange? (o : ProbabilityOrder) (word : String) : Option (Nat × Nat) :=
  (o.find? word).map fun r =>
    ((o.ranked.takeWhile fun s => s.draws > r.draws).length + 1,
      (o.ranked.takeWhile fun s => s.draws ≥ r.draws).length)

/-- Whether the rank of a word lies between two bounds. With `lax`, a rank that the word ties for
is enough. -/
def inRange (o : ProbabilityOrder) (word : String) (min max : Int) (lax : Bool) : Bool :=
  match if lax then o.tieRange? word else (o.rank? word).map fun rank => (rank, rank) with
  | some (first, last) => min ≤ (last : Int) && (first : Int) ≤ max
  | none => false

end ProbabilityOrder

end WordFinder
