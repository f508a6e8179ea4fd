import Mathlib
import WordFinder.Lexicon.Groups
import WordFinder.Proofs.Lexicon.Vocabulary
import WordFinder.Proofs.Walk.RackSpelling
import WordFinder.Proofs.WordGraph.Marks
import WordFinder.Search.Verdict

/-!
# Lexicons that agree

Two lexicons agree if they have the same words, definitions and stems, whatever the order in which
these came. The tries of lexicons that agree may differ in the order of their nodes, but nothing that
is read off them does: neither a count, nor a list of words, nor a spelling, nor a verdict.
-/
set_option autoImplicit false

namespace WordFinder

namespace WordGraph

variable {g h : WordGraph}

theorem mem_forward_iff (same : ∀ word, word ∈ g.vocabulary ↔ word ∈ h.vocabulary)
    (letters : List Char) : letters ∈ g.forward.words ↔ letters ∈ h.forward.words := by
  have members := same (.ofList letters)
  rwa [mem_vocabulary_iff, mem_vocabulary_iff, String.toList_ofList] at members

theorem IsSound.mem_backward_iff (first : g.IsSound) (second : h.IsSound)
    (same : ∀ word, word ∈ g.vocabulary ↔ word ∈ h.vocabulary) (letters : List Char) :
    letters ∈ g.backward.words ↔ letters ∈ h.backward.words := by
  rw [first.mirrored, second.mirrored, mem_forward_iff same]

theorem IsMirrored.patternMatches_alike (first : g.IsMirrored) (second : h.IsMirrored)
    (same : ∀ word, word ∈ g.vocabulary ↔ word ∈ h.vocabulary) (p : Pattern)
    (limits : WalkLimits) : (g.patternMatches p limits).Alike (h.patternMatches p limits) := by
  intro word
  have members : (g.patternMatches p limits).contains word = true ↔
      (h.patternMatches p limits).contains word = true := by
    rw [first.contains_patternMatches, second.contains_patternMatches, same]
  by_cases found : (g.patternMatches p limits).contains word = true
  · rw [first.spelling?_patternMatches found, second.spelling?_patternMatches (members.mp found)]
  · rw [MatchSet.spelling?_eq_none_iff.mpr found,
      MatchSet.spelling?_eq_none_iff.mpr (mt members.mpr found)]

theorem IsMirrored.rackMatches_alike (first : g.IsMirrored)
    (same : ∀ word, word ∈ g.vocabulary ↔ word ∈ h.vocabulary) (rack : Rack) (subanagram : Bool)
    (limits : WalkLimits) :
    (g.rackMatches rack subanagram limits).Alike (h.rackMatches rack subanagram limits) :=
  rack.wordsIn_alike subanagram limits first.capital (mem_forward_iff same)

end WordGraph

namespace Lexicon

/-- Two lexicons with the same name, tiles, words, definitions and stems. -/
structure Agrees (x y : Lexicon) : Prop where
  name : x.name = y.name
  bag : x.bag = y.bag
  firstSound : x.graph.IsSound
  secondSound : y.graph.IsSound
  words : ∀ word, word ∈ x.vocabulary ↔ word ∈ y.vocabulary
  entries : ∀ word, x.glossary.entries word = y.glossary.entries word
  stems : ∀ length stem, stem ∈ x.stemsOfLength length ↔ stem ∈ y.stemsOfLength length

namespace Agrees

variable {x y : Lexicon}

theorem contains_graph (agrees : x.Agrees y) (word : String) :
    x.graph.contains word = y.graph.contains word := by
  rw [Bool.eq_iff_iff, agrees.firstSound.contains_iff, agrees.secondSound.contains_iff]
  exact agrees.words word

theorem patternMatches (agrees : x.Agrees y) (p : Pattern) (limits : WalkLimits) :
    (x.graph.patternMatches p limits).Alike (y.graph.patternMatches p limits) :=
  agrees.firstSound.isMirrored.patternMatches_alike agrees.secondSound.isMirrored agrees.words p
    limits

theorem rackMatches (agrees : x.Agrees y) (rack : Rack) (subanagram : Bool) (limits : WalkLimits) :
    (x.graph.rackMatches rack subanagram limits).Alike
      (y.graph.rackMatches rack subanagram limits) :=
  agrees.firstSound.isMirrored.rackMatches_alike agrees.words rack subanagram limits

theorem wordsWithin (agrees : x.Agrees y) (limits : WalkLimits) :
    (x.wordsWithin limits).Alike (y.wordsWithin limits) := by
  rw [Lexicon.wordsWithin, Lexicon.wordsWithin, (agrees.patternMatches _ limits).words_eq]
  exact .refl _

theorem anagramCount (agrees : x.Agrees y) (word : String) :
    x.anagramCount word = y.anagramCount word := by
  rw [Lexicon.anagramCount, Lexicon.anagramCount]
  cases Rack.ofString? (alphagram (Text.upper word)) with
  | none => rfl
  | some rack => exact (agrees.rackMatches rack false {}).size_eq

theorem wordsOfLength (agrees : x.Agrees y) (length : Nat) :
    x.wordsOfLength length = y.wordsOfLength length := by
  rw [Lexicon.wordsOfLength, Lexicon.wordsOfLength, (agrees.patternMatches _ {}).words_eq]

theorem orderOfLength (agrees : x.Agrees y) (length : Nat) (blanks : Int32) :
    x.orderOfLength length blanks = y.orderOfLength length blanks := by
  rw [Lexicon.orderOfLength, Lexicon.orderOfLength, agrees.bag, agrees.wordsOfLength]

theorem wordCount (agrees : x.Agrees y) : x.wordCount = y.wordCount := by
  have perm : x.graph.forward.words.Perm y.graph.forward.words := by
    rw [List.perm_ext_iff_of_nodup agrees.firstSound.forwardProper.nodup_words
      agrees.secondSound.forwardProper.nodup_words]
    exact WordGraph.mem_forward_iff agrees.words
  rw [Lexicon.wordCount, Lexicon.wordCount, WordGraph.wordCount, WordGraph.wordCount,
    ← Trie.length_words, ← Trie.length_words, perm.length_eq]

/-! ## Groups -/

theorem mem_stemLetters (agrees : x.Agrees y) (length : Nat) (letters : List Char) :
    letters ∈ x.stemLetters length ↔ letters ∈ y.stemLetters length := by
  simp only [stemLetters, List.mem_map, agrees.stems length]

theorem extendsStem (agrees : x.Agrees y) (word : String) (length : Nat) :
    x.extendsStem word length = y.extendsStem word length := by
  have same (letters : List Char) :
      (x.stemLetters length).contains letters = (y.stemLetters length).contains letters := by
    rw [Bool.eq_iff_iff, List.contains_iff_mem, List.contains_iff_mem, agrees.mem_stemLetters]
  simp only [Lexicon.extendsStem, same]

theorem nearlyHasShortStem (agrees : x.Agrees y) (word : String) :
    x.nearlyHasShortStem word = y.nearlyHasShortStem word := by
  rw [Bool.eq_iff_iff, Lexicon.nearlyHasShortStem, Lexicon.nearlyHasShortStem, List.any_eq_true,
    List.any_eq_true]
  simp only [agrees.mem_stemLetters]

theorem isMember (agrees : x.Agrees y) (word : String) (group : WordGroup) :
    x.isMember word group = y.isMember word group := by
  have likely (word reference : String) :
      x.isAsLikelyAs word reference = y.isAsLikelyAs word reference := by
    rw [isAsLikelyAs, isAsLikelyAs, agrees.bag]
  simp only [Lexicon.isMember, isTypeOneSeven, isTypeOneEight, isTypeTwoSeven, isTypeTwoEight,
    isTypeThreeSeven, isTypeThreeEight, agrees.contains_graph, agrees.extendsStem,
    agrees.nearlyHasShortStem, likely]

/-! ## Verdicts -/

theorem meets (agrees : x.Agrees y) (word : String) (c : Condition) :
    x.meets word c = y.meets word c := by
  simp only [Lexicon.meets, Lexicon.contains, meetsGroup, meetsProbability, hasDefinitionWith,
    Glossary.hasPartOfSpeech, agrees.contains_graph, agrees.isMember, agrees.name,
    agrees.anagramCount, agrees.bag, agrees.orderOfLength, agrees.entries]

end Agrees

end Lexicon

end WordFinder
