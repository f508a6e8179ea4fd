/-!
# Letters of a word

Words of a lexicon are spelled with the capital letters `A` to `Z`. The alphagram of a word is its
letters in order, so two words are anagrams of each other exactly when their alphagrams agree.
-/
set_option autoImplicit false

namespace WordFinder

/-- The longest word that a lexicon holds or a search finds. -/
def maxWordLength : Nat := 15

def alphabet : List Char := "ABCDEFGHIJKLMNOPQRSTUVWXYZ".toList

def isVowel (c : Char) : Bool :=
  ['A', 'E', 'I', 'O', 'U'].contains c.toUpper

def sortedLetters (word : List Char) : List Char :=
  word.mergeSort fun a b => a ≤ b

def alphagram (word : String) : String :=
  .ofList (sortedLetters word.toList)

def vowelCount (word : String) : Nat :=
  word.toList.countP isVowel

def uniqueLetterCount (word : String) : Nat :=
  word.toList.eraseDups.length

end WordFinder
