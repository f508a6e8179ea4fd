/-!
# Kinds of condition

What a condition asks of a word, under the name by which saved searches and displays know it.
-/
set_option autoImplicit false

namespace WordFinder

inductive ConditionKind where
  | patternMatch
  | anagramMatch
  | subanagramMatch
  | length
  | takesPrefix
  | takesSuffix
  | includesLetters
  | consistsOf
  | belongsToGroup
  | inLexicon
  | inWordList
  | anagramCount
  | vowelCount
  | uniqueLetterCount
  | pointValue
  | probability
  | probabilityOrder
  | probabilityOrderLimit
  | partOfSpeech
  | definition
deriving DecidableEq, Repr

/-- Which values a condition of a kind carries. -/
inductive Payload where
  /-- A text and whether it is negated. -/
  | text
  | range
  /-- A range and a number of blanks. -/
  | probability
  /-- A range, a number of blanks and whether the bounds are lax. -/
  | order
  /-- A text and a range of percentages. -/
  | percentage
deriving DecidableEq, Repr

def Payload.name : Payload → String
  | text => "Text"
  | range => "Range"
  | probability => "Probability"
  | order => "Order"
  | percentage => "Percentage"

namespace ConditionKind

def all : List ConditionKind :=
  [patternMatch, anagramMatch, subanagramMatch, length, takesPrefix, takesSuffix, includesLetters,
    consistsOf, belongsToGroup, inLexicon, inWordList, anagramCount, vowelCount, uniqueLetterCount,
    pointValue, probability, probabilityOrder, probabilityOrderLimit, partOfSpeech, definition]

def name : ConditionKind → String
  | patternMatch => "Pattern Match"
  | anagramMatch => "Anagram Match"
  | subanagramMatch => "Subanagram Match"
  | length => "Length"
  | takesPrefix => "Takes Prefix"
  | takesSuffix => "Takes Suffix"
  | includesLetters => "Includes Letters"
  | consistsOf => "Consists of"
  | belongsToGroup => "Belongs to Group"
  | inLexicon => "In Lexicon"
  | inWordList => "In Word List"
  | anagramCount => "Number of Anagrams"
  | vowelCount => "Number of Vowels"
  | uniqueLetterCount => "Number of Unique Letters"
  | pointValue => "Point Value"
  | probability => "Probability"
  | probabilityOrder => "Probability Order"
  | probabilityOrderLimit => "Limit by Probability Order"
  | partOfSpeech => "Part of Speech"
  | definition => "Definition"

def ofName? (name : String) : Option ConditionKind :=
  all.find? (·.name == name)

def payload : ConditionKind → Payload
  | length | anagramCount | vowelCount | uniqueLetterCount | pointValue => .range
  | probability => .probability
  | probabilityOrder | probabilityOrderLimit => .order
  | consistsOf => .percentage
  | _ => .text

def isMatch : ConditionKind → Bool
  | patternMatch | anagramMatch | subanagramMatch => true
  | _ => false

end ConditionKind

end WordFinder
