import WordFinder.Letter

/-!
# Limits of a walk

Bounds on the words that a walk over a trie may find. They also cut the walk short.
-/
set_option autoImplicit false

namespace WordFinder

structure WalkLimits where
  minLength : Nat := 1
  maxLength : Nat := maxWordLength
  excluded : List Char := []
deriving DecidableEq, Repr

namespace WalkLimits

def allows (limits : WalkLimits) (c : Char) : Bool :=
  !limits.excluded.contains c

/-- Whether a word of this length may still be continued. -/
def continues (limits : WalkLimits) (length : Nat) : Bool :=
  length < limits.maxLength

end WalkLimits

end WordFinder
