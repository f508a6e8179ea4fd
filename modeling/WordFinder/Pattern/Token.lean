import WordFinder.SearchString

/-!
# Tokens

A token is one element of a search string with its meaning: a letter, any letter, a letter class,
or a star. A string whose classes are empty or not closed, or that holds other characters, has no
tokens.
-/
set_option autoImplicit false

namespace WordFinder

/-- The letters that a bracketed class accepts, in the order of the alphabet. -/
structure LetterClass where
  letters : List Char
deriving DecidableEq, Repr

/-- The class written with the given members: all must be letters, and there must be one. After a
leading circumflex the class accepts the letters that are not members. -/
def LetterClass.ofMembers? (members : List Char) : Option LetterClass :=
  let negated := members.head? == some '^'
  let listed := (if negated then members.tail else members).map Char.toUpper
  if !listed.isEmpty && listed.all Char.isUpper then
    some ⟨alphabet.filter fun c => listed.contains c != negated⟩
  else none

def LetterClass.accepts (k : LetterClass) (c : Char) : Bool :=
  k.letters.contains c.toUpper

inductive Token where
  | letter (c : Char)
  | any
  | oneOf (k : LetterClass)
  | star
deriving DecidableEq, Repr

namespace Token

/-- Whether the token accepts a letter, given in either case. A star accepts every letter. -/
def accepts : Token → Char → Bool
  | .letter l, c => l == c.toUpper
  | .any, c => c.isAlpha
  | .oneOf k, c => k.accepts c
  | .star, c => c.isAlpha

def ofPiece? : SearchString.Piece → Option Token
  | .plain c =>
    if c = '?' || c = '.' then some .any
    else if c = '*' then some .star
    else if c.isAlpha then some (.letter c.toUpper)
    else none
  | .letterClass members => (LetterClass.ofMembers? members).map .oneOf
  | .unclosed _ => none

def ofString? (s : String) : Option (List Token) :=
  (SearchString.units s.toList).mapM ofPiece?

def text : Token → String
  | .letter c => .singleton c
  | .any => "?"
  | .oneOf k => "[" ++ .ofList k.letters ++ "]"
  | .star => "*"

end Token

end WordFinder
