import WordFinder.Lexicon.Groups
import WordFinder.Probability.Order
import WordFinder.Search.Spec

/-!
# Verdicts on single words

Whether a word, in upper case, meets a condition, judged by the vocabulary, the definitions and the
tiles of a lexicon. Conditions that bound a number ignore their negation. A limit by probability
order always holds here: it is about a whole result. A search string that cannot be read is met by
no word, negated or not.
-/
set_option autoImplicit false

namespace WordFinder

def occursIn (part : List Char) : List Char → Bool
  | [] => part.isEmpty
  | c :: cs => part.isPrefixOf (c :: cs) || occursIn part cs

namespace Condition

def admits (c : Condition) (n : Nat) : Bool :=
  c.min.toInt ≤ (n : Int) && (n : Int) ≤ c.max.toInt

def verdict (c : Condition) (holds : Bool) : Bool :=
  holds != c.negated

def wantedLetters (c : Condition) : List Char :=
  (c.string.toList.filter Char.isAlpha).map Char.toUpper

/-- Whether a word has the letters of a condition, each as often as it is written; or none of them
if the condition is negated. -/
def includesLetters (c : Condition) (word : String) : Bool :=
  let letters := word.toList
  if c.negated then c.wantedLetters.all fun l => !letters.contains l
  else c.wantedLetters.all fun l => c.wantedLetters.count l ≤ letters.count l

/-- Whether the share of letters of a word that are among those of a condition lies between its
bounds, in percent. The empty word never passes. -/
def consistsOf (c : Condition) (word : String) : Bool :=
  let letters := word.toList
  let allowed := (Text.upper c.string).toList
  let share : Int := letters.countP allowed.contains * 100
  !letters.isEmpty &&
    c.verdict (c.min.toInt * letters.length ≤ share && share ≤ c.max.toInt * letters.length)

def listsWord (c : Condition) (word : String) : Bool :=
  (Text.words c.string).any fun listed => Text.upper listed == Text.upper word

def patternVerdict (c : Condition) (p? : Option Pattern) (word : String) : Bool :=
  p?.any fun p => c.verdict (p.isMatch word)

def rackVerdict (c : Condition) (rack? : Option Rack) (word : String) : Bool :=
  rack?.any fun rack => c.verdict (rack.spells word (c.kind = .subanagramMatch))

def orderVerdict (c : Condition) (order : ProbabilityOrder) (word : String) : Bool :=
  order.inRange word c.min.toInt c.max.toInt c.lax

end Condition

namespace Lexicon

def orderOfLength (x : Lexicon) (length : Nat) (blanks : Int32) : ProbabilityOrder :=
  .ofWords x.bag blanks true (x.wordsOfLength length)

def hasDefinitionWith (x : Lexicon) (word text : String) : Bool :=
  let part := (Text.fullLower text).toList
  (x.glossary.entries word).any fun entry => occursIn part (Text.fullLower entry).toList

def meetsProbability (x : Lexicon) (word : String) (c : Condition) : Bool :=
  let combinations := (x.bag.combinations word c.blanks).round
  Float.ofInt c.min.toInt ≤ combinations && combinations ≤ Float.ofInt c.max.toInt

def meetsGroup (x : Lexicon) (word : String) (c : Condition) : Bool :=
  match WordGroup.ofName? c.string with
  | some group => c.verdict (x.isMember word group)
  | none => true

def meets (x : Lexicon) (word : String) (c : Condition) : Bool :=
  match c.kind with
  | .patternMatch => c.patternVerdict (Pattern.ofString? c.string) word
  | .anagramMatch | .subanagramMatch => c.rackVerdict (Rack.ofString? c.string) word
  | .length => c.admits word.length
  | .takesPrefix => c.verdict (x.contains (Text.upper c.string ++ word))
  | .takesSuffix => c.verdict (x.contains (word ++ Text.upper c.string))
  | .includesLetters => c.includesLetters word
  | .consistsOf => c.consistsOf word
  | .belongsToGroup => x.meetsGroup word c
  | .inLexicon => c.verdict (c.string == x.name)
  | .inWordList => c.verdict (c.listsWord word)
  | .anagramCount => c.admits (x.anagramCount word)
  | .vowelCount => c.admits (WordFinder.vowelCount word)
  | .uniqueLetterCount => c.admits (WordFinder.uniqueLetterCount word)
  | .pointValue => c.admits (WordFinder.pointValue word)
  | .probability => x.meetsProbability word c
  | .probabilityOrder => c.orderVerdict (x.orderOfLength word.length c.blanks) word
  | .probabilityOrderLimit => true
  | .partOfSpeech => c.verdict (x.glossary.hasPartOfSpeech word c.string)
  | .definition => c.verdict (x.hasDefinitionWith word c.string)

def meetsAll (x : Lexicon) (word : String) (conditions : List Condition) : Bool :=
  conditions.all (x.meets word)

def meetsAny (x : Lexicon) (word : String) (conditions : List Condition) : Bool :=
  conditions.any (x.meets word)

/-- Whether a word meets the conditions of a search as they are written. No word meets a search
without conditions. -/
def meetsSpec (x : Lexicon) (word : String) (spec : SearchSpec) : Bool :=
  !spec.conditions.isEmpty &&
    if spec.conjunction then x.meetsAll word spec.conditions else x.meetsAny word spec.conditions

end Lexicon

end WordFinder
