import WordFinder.Text.Blank
import WordFinder.Letter

/-!
# Search strings

A search string describes words letter by letter. A letter stands for itself, `?` and `.` for any
letter, `[ABC]` for one of the letters listed, `[^ABC]` for one of the others, and `*` for any run
of letters. White space means nothing and a run of stars means one star.

The units of a search string are what remains once white space is dropped and star runs are
collapsed. Both the canonical spelling and the reading of patterns start from them.
-/
set_option autoImplicit false

namespace WordFinder.SearchString

open Text (isBlank)

inductive Piece where
  | plain (c : Char)
  | letterClass (members : List Char)
  /-- A class that the string ends without closing. -/
  | unclosed (members : List Char)
deriving DecidableEq, Repr

/-- The pieces of a search string; `members?` holds what was read of a class that is still open,
last character first. -/
def piecesFrom : Option (List Char) → List Char → List Piece
  | none, [] => []
  | some members, [] => [.unclosed members.reverse]
  | none, c :: cs =>
    if isBlank c then piecesFrom none cs
    else if c = '[' then piecesFrom (some []) cs
    else .plain c :: piecesFrom none cs
  | some members, c :: cs =>
    if isBlank c then piecesFrom (some members) cs
    else if c = ']' then .letterClass members.reverse :: piecesFrom none cs
    else piecesFrom (some (c :: members)) cs

def collapseStars : List Piece → List Piece
  | .plain '*' :: .plain '*' :: pieces => collapseStars (.plain '*' :: pieces)
  | piece :: pieces => piece :: collapseStars pieces
  | [] => []

def units (s : List Char) : List Piece :=
  collapseStars (piecesFrom none s)

/-- The members of a class in order and without repetition, in upper case. A circumflex counts as
negation only where it comes first. -/
def canonicalMembers (members : List Char) : List Char :=
  match members.map Char.toUpper with
  | '^' :: letters => '^' :: (sortedLetters letters).eraseDups
  | letters => (sortedLetters letters).eraseDups

/-- The canonical spelling of one unit. A class that is not closed is kept, so that a reader still
refuses it. -/
def Piece.canonical : Piece → List Char
  | .plain '.' => ['?']
  | .plain c => [c.toUpper]
  | .letterClass members => '[' :: canonicalMembers members ++ [']']
  | .unclosed members => '[' :: members.map Char.toUpper

/-- The canonical spelling of a search string: letters in upper case, `?` for `.`, no white space,
no star run longer than one, and the members of each class in order without repetition. -/
def canonical (s : String) : String :=
  .ofList ((units s.toList).flatMap Piece.canonical)

def slotsFrom : Bool → List Char → Nat
  | _, [] => 0
  | inClass, c :: cs =>
    if c = '[' then slotsFrom true cs
    else if c = ']' then slotsFrom false cs + 1
    else if c = '*' || inClass then slotsFrom inClass cs
    else slotsFrom false cs + 1

/-- The number of letters that a search string asks for: one for each class and for each character
outside a class except the star. -/
def slotCount (s : String) : Nat :=
  slotsFrom false s.toList

/-- The reversal of what is left of a search string, put before `done`. While a class is open,
`class?` holds what was read of it, last character first; a class that is never closed is reversed
like other characters. -/
def reversedFrom : Option (List Char) → List Char → List Char → List Char
  | none, done, [] => done
  | some unit, done, [] => unit ++ done
  | none, done, c :: cs =>
    if c = '[' then reversedFrom (some ['[']) done cs else reversedFrom none (c :: done) cs
  | some unit, done, c :: cs =>
    if c = ']' then reversedFrom none (unit.reverse ++ ']' :: done) cs
    else reversedFrom (some (c :: unit)) done cs

/-- The search string read from right to left, with each closed class kept as one unit. -/
def reversed (s : String) : String :=
  .ofList (reversedFrom none [] s.toList)

end WordFinder.SearchString
