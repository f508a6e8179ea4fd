import WordFinder.Pattern.Scan

/-!
# Patterns

A pattern is a search string read from left to right. It matches a word that splits into
consecutive parts, one for each token: any run of characters for a star, and one letter that the
token accepts for every other token.
-/
set_option autoImplicit false

namespace WordFinder

structure Pattern where
  tokens : List Token
deriving DecidableEq, Repr

namespace Pattern

def ofString? (s : String) : Option Pattern :=
  (Token.ofString? s).map Pattern.mk

def reversed (p : Pattern) : Pattern :=
  ⟨p.tokens.reverse⟩

def text (p : Pattern) : String :=
  String.join (p.tokens.map Token.text)

def isSuffixAnchored (p : Pattern) : Bool :=
  p.tokens.head? == some .star && p.tokens.getLast? != some .star

def isExhaustedAt (p : Pattern) (position : Nat) : Bool :=
  onlyStars (p.tokens.drop position)

def isMatch (p : Pattern) (word : String) : Bool :=
  (Scan.start p.tokens word.toList).run

end Pattern

end WordFinder
