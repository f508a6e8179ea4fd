import WordFinder.Letter
import WordFinder.Total

/-!
# Tile bags

A bag holds a number of tiles of each letter and of blanks. The number of draws of a word is the
number of ways to take its letters from a full bag, where one or two blanks may stand in for
letters. It is a sum of products of binomial coefficients, and it is defined over any numbers with
sums, products and quotients.
-/
set_option autoImplicit false

namespace WordFinder

def blankTile : Char := '_'

def tiles : List Char := alphabet ++ [blankTile]

structure TileBag where
  /-- How many tiles there are of a kind, latest entry first; earlier entries for the kind do not
  count. -/
  entries : List (Char × Nat)
deriving DecidableEq, Repr

instance floatNatCast : NatCast Float := ⟨Float.ofNat⟩

/-- The binomial coefficient, by repeated multiplication and division. -/
def binomial (α : Type) [NatCast α] [Mul α] [Div α] (m n : Nat) : α :=
  if n > m then ((0 : Nat) : α)
  else (List.range (min n (m - n))).foldl
    (fun product i => product * ((m - i : Nat) : α) / ((i + 1 : Nat) : α)) ((1 : Nat) : α)

def letterValues : List (Char × Nat) :=
  alphabet.zip
    [1, 3, 3, 2, 1, 4, 2, 4, 1, 8, 5, 1, 3, 1, 1, 3, 10, 1, 1, 1, 1, 4, 4, 8, 4, 10]

/-- The value of a letter in either case; any other tile is worth nothing. -/
def letterValue (c : Char) : Nat :=
  (letterValues.lookup c.toUpper).getD 0

def pointValue (word : String) : Nat :=
  totalOf letterValue word.toList

/-- How often a letter occurs in a word, and how many tiles of it a bag has. -/
structure LetterNeed where
  needed : Nat
  available : Nat
deriving DecidableEq, Repr

namespace LetterNeed

def spare (needs : List LetterNeed) (i : Nat) : List LetterNeed :=
  needs.modify i fun need => { need with needed := need.needed - 1 }

def draws (α : Type) [NatCast α] [Mul α] [Div α] (needs : List LetterNeed) : α :=
  needs.foldl (fun product need => product * binomial α need.available need.needed) ((1 : Nat) : α)

/-- The needs once two letters are replaced, for each pair of letters that can be: the first at
position `i`, the second there or later. -/
def sparePairs (needs : List LetterNeed) (i : Nat) : List (List LetterNeed) :=
  ((List.range needs.length).filter fun j =>
      i ≤ j && ((spare needs i)[j]?.any fun need => need.needed != 0)).map (spare (spare needs i))

end LetterNeed

namespace TileBag

/-- The number of tiles of a kind; a letter may be given in either case. -/
def frequency (bag : TileBag) (tile : Char) : Nat :=
  (bag.entries.lookup tile.toUpper).getD 0

def total (bag : TileBag) : Nat :=
  totalOf bag.frequency tiles

def needs (bag : TileBag) (word : String) : List LetterNeed :=
  let letters := word.toList.map Char.toUpper
  letters.eraseDups.map fun c => ⟨letters.count c, bag.frequency c⟩

/-- The number of ways to draw a word when up to `blanks` of its letters, at most two, may be
blanks. -/
def draws (α : Type) [NatCast α] [Add α] [Mul α] [Div α]
    (bag : TileBag) (word : String) (blanks : Int32) : α :=
  let needs := bag.needs word
  let positions := List.range needs.length
  let blankTiles := bag.frequency blankTile
  let oneBlank := if blanks < 1 then [] else
    positions.map fun i => binomial α blankTiles 1 * LetterNeed.draws α (LetterNeed.spare needs i)
  let twoBlanks := if blanks < 2 then [] else
    positions.flatMap fun i => (LetterNeed.sparePairs needs i).map fun rest =>
      binomial α blankTiles 2 * LetterNeed.draws α rest
  (oneBlank ++ twoBlanks).foldl (· + ·) (LetterNeed.draws α needs)

def combinations (bag : TileBag) (word : String) (blanks : Int32) : Float :=
  bag.draws Float word blanks

/-- The probability of drawing a word with as many tiles as it has letters, times 10^9. A word too
long for a search has none. -/
def probability (bag : TileBag) (word : String) (blanks : Int32) : Float :=
  let hands := binomial Float bag.total word.length
  if word.length ≤ maxWordLength && hands > 0 then
    1e9 * bag.combinations word blanks / hands
  else 0

end TileBag

end WordFinder
