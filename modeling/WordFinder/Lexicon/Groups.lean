import WordFinder.Lexicon
import WordFinder.WordGroup

/-!
# Members of word groups

Hooks are words that are still words without their first or last letter. The sevens and eights of
type I extend a stem of six letters, those of type II are drawn from a fixed hand of frequent
letters, and those of type III are at least as likely as a given word; each type leaves out the
members of the types before it.
-/
set_option autoImplicit false

namespace WordFinder

/-- The letters that words of type II are drawn from, in order. -/
def typeTwoLetters : List Char := "AAADEEEEGIIILNNOORRSSTTU".toList

/-- The least likely seven and eight of type III. -/
def typeThreeSeven : String := "HUNTERS"

def typeThreeEight : String := "NOTIFIED"

def shortStemLength : Nat := 6

def longStemLength : Nat := 7

/-- Whether a word has no tile worth more than five points and one worth four or five at an end. -/
def isHighFive (word : String) : Bool :=
  let values := word.toList.map letterValue
  let ends := values.head?.toList ++ values.getLast?.toList
  values.all (· ≤ 5) && ends.any fun value => value == 4 || value == 5

/-- The letters of `wanted` that remain once each letter of a hand, in order, has taken away the
first of them if it is equal. -/
def remainingAfter (wanted : List Char) (hand : List Char) : List Char :=
  hand.foldl (fun wanted c => if wanted.head? = some c then wanted.tail else wanted) wanted

def isDrawnFromTypeTwoLetters (word : String) : Bool :=
  (remainingAfter (sortedLetters word.toList) typeTwoLetters).isEmpty

/-- Reads the letters of a word against the letters of a stem, both in order, and counts those that
the stem does not have next, up to the end of the stem or to three of them. -/
def strayLetters : List Char → List Char → Nat → Nat
  | [], _, strays => strays
  | _ :: _, [], strays => strays
  | c :: letters, s :: stem, strays =>
    if 2 < strays then strays
    else if c = s then strayLetters letters stem strays
    else strayLetters letters (s :: stem) (strays + 1)

namespace Lexicon

def stemLetters (x : Lexicon) (length : Nat) : List (List Char) :=
  (x.stemsOfLength length).map fun stem => sortedLetters stem.toList

def extendsStem (x : Lexicon) (word : String) (length : Nat) : Bool :=
  let stems := x.stemLetters length
  let letters := sortedLetters word.toList
  (List.range letters.length).any fun i => stems.contains (letters.eraseIdx i)

/-- Whether a word has the letters of a stem of six and at most two more. -/
def nearlyHasShortStem (x : Lexicon) (word : String) : Bool :=
  (x.stemLetters shortStemLength).any fun stem =>
    strayLetters (sortedLetters word.toList) stem 0 ≤ 2

/-- Whether a word can be drawn with two blanks in at least as many ways as another. -/
def isAsLikelyAs (x : Lexicon) (word reference : String) : Bool :=
  x.bag.combinations word 2 ≥ x.bag.combinations reference 2

/-- Whether a word, in upper case, is of type I. -/
def isTypeOneSeven (x : Lexicon) (word : String) : Bool :=
  word.length == 7 && x.extendsStem word shortStemLength

def isTypeOneEight (x : Lexicon) (word : String) : Bool :=
  word.length == 8 && x.nearlyHasShortStem word

def isTypeTwoSeven (x : Lexicon) (word : String) : Bool :=
  word.length == 7 && isDrawnFromTypeTwoLetters word && !x.isTypeOneSeven word

def isTypeTwoEight (x : Lexicon) (word : String) : Bool :=
  word.length == 8 && isDrawnFromTypeTwoLetters word && !x.isTypeOneEight word

def isTypeThreeSeven (x : Lexicon) (word : String) : Bool :=
  word.length == 7 && x.isAsLikelyAs word typeThreeSeven && !x.isTypeOneSeven word
    && !x.isTypeTwoSeven word

def isTypeThreeEight (x : Lexicon) (word : String) : Bool :=
  word.length == 8 && x.isAsLikelyAs word typeThreeEight && !x.isTypeOneEight word
    && !x.isTypeTwoEight word

def withoutFirst (word : String) : String :=
  .ofList word.toList.tail

def withoutLast (word : String) : String :=
  .ofList word.toList.dropLast

/-- Whether a word, in either case, is a member of a group. Words with characters beyond ASCII are
in no group. -/
def isMember (x : Lexicon) (word : String) (group : WordGroup) : Bool :=
  let word := Text.upper word
  if word.isEmpty || word.toList.any (fun c => 127 < c.toNat) then false
  else
    match group with
    | .hookWords => x.graph.contains (withoutLast word) || x.graph.contains (withoutFirst word)
    | .frontHooks => x.graph.contains (withoutFirst word)
    | .backHooks => x.graph.contains (withoutLast word)
    | .highFives => word.length == 5 && isHighFive word
    | .typeOneSevens => x.isTypeOneSeven word
    | .typeTwoSevens => x.isTypeTwoSeven word
    | .typeThreeSevens => x.isTypeThreeSeven word
    | .typeOneEights => x.isTypeOneEight word
    | .typeTwoEights => x.isTypeTwoEight word
    | .typeThreeEights => x.isTypeThreeEight word
    | .eightsFromSevenLetterStems => word.length == 8 && x.extendsStem word longStemLength

def groupsOf (x : Lexicon) (word : String) : List WordGroup :=
  WordGroup.all.filter (x.isMember word)

end Lexicon

end WordFinder
