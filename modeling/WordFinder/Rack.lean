import WordFinder.Pattern.Token

/-!
# Racks

A rack is a search string read as a supply of letters in no order. Each letter, `?` and class is a
slot that supplies one letter; a star supplies letters without end. An anagram uses every slot, a
subanagram may leave slots unused.
-/
set_option autoImplicit false

namespace WordFinder

structure Rack where
  letters : List Char
  blanks : Nat
  /-- The classes of the class slots, as written. -/
  classes : List LetterClass
  star : Bool
deriving DecidableEq, Repr

namespace Rack

def empty : Rack := ⟨[], 0, [], false⟩

/-- The most slots for one letter, and the most slots for any letter, that a rack has. Far more
than a word has letters. -/
def maxCopies : Nat := 255

/-- The rack with one more token. Slots beyond `maxCopies` are dropped. -/
def add (rack : Rack) : Token → Rack
  | .letter c =>
    if rack.letters.count c < maxCopies then { rack with letters := c :: rack.letters } else rack
  | .any => { rack with blanks := min (rack.blanks + 1) maxCopies }
  | .oneOf k => { rack with classes := rack.classes ++ [k] }
  | .star => { rack with star := true }

def ofTokens (tokens : List Token) : Rack :=
  tokens.foldl add empty

def ofString? (s : String) : Option Rack :=
  (Token.ofString? s).map ofTokens

def slotCount (rack : Rack) : Nat :=
  rack.letters.length + rack.blanks + rack.classes.length

/-- The letters of a word that the letter slots do not supply, and the letter slots left, when
each letter takes a letter slot if there is one. -/
def takeLetters : List Char → List Char → List Char × List Char
  | slots, [] => ([], slots)
  | slots, c :: word =>
    if slots.contains c then takeLetters (slots.erase c) word
    else
      let rest := takeLetters slots word
      (c :: rest.1, rest.2)

/-- Whether classes, blanks and star can supply the given letters: each letter takes a class slot
that accepts it, a blank, or the star. Unless slots may be left over, all of them are used. -/
def canSupply (star mayLeave : Bool) : List Char → List LetterClass → Nat → Bool
  | [], classes, blanks => mayLeave || (classes.isEmpty && blanks == 0)
  | c :: word, classes, blanks =>
    ((classes.filter (·.accepts c)).eraseDups.any fun k =>
        canSupply star mayLeave word (classes.erase k) blanks)
      || (blanks != 0 && canSupply star mayLeave word classes (blanks - 1))
      || (star && canSupply star mayLeave word classes blanks)

def spells (rack : Rack) (word : String) (subanagram : Bool) : Bool :=
  let letters := word.toList.map Char.toUpper
  let (others, slots) := takeLetters rack.letters letters
  !letters.isEmpty && letters.all Char.isUpper && (subanagram || slots.isEmpty)
    && canSupply rack.star subanagram others rack.classes rack.blanks

end Rack

end WordFinder
