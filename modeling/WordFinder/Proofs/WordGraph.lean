import Mathlib
import WordFinder.WordGraph
import WordFinder.Proofs.Pattern.Scan
import WordFinder.Proofs.Walk.Pattern
import WordFinder.Proofs.Walk.Rack

/-!
# Vocabularies

The vocabulary of a word graph is the list of the words in its forward trie. In a sound graph both
tries hold the same words, read from either end, so a walk finds the same words in either of them.
-/
set_option autoImplicit false

namespace WordFinder

/-- A spelling that a vocabulary can hold. -/
structure IsStorable (word : List Char) : Prop where
  capitals : AreCapitals word
  nonempty : 0 < word.length
  short : word.length ≤ maxWordLength

namespace SearchString

theorem reversedFrom_none {s : List Char} (noClass : '[' ∉ s) (done : List Char) :
    reversedFrom none done s = s.reverse ++ done := by
  induction s generalizing done with
  | nil => rfl
  | cons c s ih =>
    obtain ⟨notOpening, others⟩ := List.ne_and_not_mem_of_not_mem_cons noClass
    rw [reversedFrom, if_neg (Ne.symm notOpening), ih others, List.reverse_cons, List.append_assoc,
      List.singleton_append]

theorem toList_reversed_of_capitals {s : String} (capitals : AreCapitals s.toList) :
    (reversed s).toList = s.toList.reverse := by
  have noClass : '[' ∉ s.toList := by
    intro member
    exact absurd (capitals _ member) (by decide)
  rw [reversed, String.toList_ofList, reversedFrom_none noClass, List.append_nil]

end SearchString

namespace WordGraph

def vocabulary (g : WordGraph) : List String :=
  g.forward.words.map String.ofList

/-- Both tries hold the same words in capital letters, one of them read from the other end. -/
structure IsMirrored (g : WordGraph) : Prop where
  forwardProper : g.forward.IsProper
  backwardProper : g.backward.IsProper
  capital : g.forward.IsCapital
  mirrored : ∀ word, word ∈ g.backward.words ↔ word.reverse ∈ g.forward.words

structure IsSound (g : WordGraph) : Prop where
  forwardProper : g.forward.IsProper
  backwardProper : g.backward.IsProper
  storable : ∀ word ∈ g.forward.words, IsStorable word
  mirrored : ∀ word, word ∈ g.backward.words ↔ word.reverse ∈ g.forward.words

variable {g : WordGraph} {word : String}

theorem IsSound.isMirrored (sound : g.IsSound) : g.IsMirrored where
  forwardProper := sound.forwardProper
  backwardProper := sound.backwardProper
  capital := fun word member => (sound.storable word member).capitals
  mirrored := sound.mirrored

theorem mem_vocabulary_iff : word ∈ g.vocabulary ↔ word.toList ∈ g.forward.words := by
  rw [vocabulary, List.mem_map]
  constructor
  · intro holds
    obtain ⟨letters, member, rfl⟩ := holds
    rwa [String.toList_ofList]
  · intro member
    exact ⟨word.toList, member, String.ofList_toList⟩

/-! ## Building a graph -/

theorem isSound_empty : empty.IsSound where
  forwardProper := trivial
  backwardProper := trivial
  storable word member := absurd member List.not_mem_nil
  mirrored word := by
    constructor <;> (intro member; exact absurd member List.not_mem_nil)

theorem mem_vocabulary_insert (nonempty : word.toList ≠ []) {other : String} :
    other ∈ (g.insert word).vocabulary ↔ other = word ∨ other ∈ g.vocabulary := by
  rw [mem_vocabulary_iff, mem_vocabulary_iff, insert, Trie.mem_words_insert, String.toList_inj]
  simp only [nonempty, ne_eq, not_false_eq_true, and_true]
  exact or_comm

theorem IsMirrored.insert (mirrored : g.IsMirrored) (capitals : AreCapitals word.toList) :
    (g.insert word).IsMirrored := by
  refine ⟨mirrored.forwardProper.insert _, mirrored.backwardProper.insert _, ?_, ?_⟩
  · intro other member
    rcases Trie.mem_words_insert.mp member with old | ⟨rfl, _⟩
    · exact mirrored.capital other old
    · exact capitals
  · intro other
    rw [WordGraph.insert, Trie.mem_words_insert, Trie.mem_words_insert, mirrored.mirrored,
      SearchString.toList_reversed_of_capitals capitals, ne_eq, List.reverse_eq_nil_iff,
      List.reverse_eq_iff]

theorem IsSound.insert (sound : g.IsSound) (storable : IsStorable word.toList) :
    (g.insert word).IsSound := by
  have mirrored := sound.isMirrored.insert storable.capitals
  refine ⟨mirrored.forwardProper, mirrored.backwardProper, ?_, mirrored.mirrored⟩
  intro other member
  rcases Trie.mem_words_insert.mp member with old | ⟨rfl, _⟩
  · exact sound.storable other old
  · exact storable

/-! ## What a sound graph holds -/

namespace IsSound

theorem storable_of_mem (sound : g.IsSound) (member : word ∈ g.vocabulary) :
    IsStorable word.toList :=
  sound.storable _ (mem_vocabulary_iff.mp member)

theorem contains_iff (sound : g.IsSound) : g.contains word = true ↔ word ∈ g.vocabulary := by
  rw [contains, sound.forwardProper.contains_iff, mem_vocabulary_iff]

theorem nodup_vocabulary (sound : g.IsSound) : g.vocabulary.Nodup :=
  sound.forwardProper.nodup_words.map fun first second same => by
    rw [← String.toList_ofList (l := first), same, String.toList_ofList]

theorem admits_default (sound : g.IsSound) (member : word ∈ g.vocabulary) :
    WalkLimits.Admits {} word.toList := by
  have storable := sound.storable_of_mem member
  exact ⟨storable.nonempty, storable.short, fun c _ => by simp [WalkLimits.allows]⟩

end IsSound

/-! ## What walks over a graph find -/

theorem admits_reverse {limits : WalkLimits} {letters : List Char} :
    limits.Admits letters.reverse ↔ limits.Admits letters := by
  constructor
  · intro holds
    obtain ⟨long, short, allowed⟩ := holds
    rw [List.length_reverse] at long short
    exact ⟨long, short, fun c member => allowed c (List.mem_reverse.mpr member)⟩
  · intro holds
    obtain ⟨long, short, allowed⟩ := holds
    refine ⟨?_, ?_, fun c member => allowed c (List.mem_reverse.mp member)⟩
    · rwa [List.length_reverse]
    · rwa [List.length_reverse]

theorem upper_readBackwards (spelling : String) :
    Text.upper (Pattern.readBackwards spelling) =
      Pattern.readBackwards (Text.upper spelling) := by
  rw [← String.toList_inj, Text.toList_upper, Pattern.readBackwards, Pattern.readBackwards,
    String.toList_ofList, String.toList_ofList, Text.toList_upper, List.map_reverse]

theorem readBackwards_readBackwards (spelling : String) :
    Pattern.readBackwards (Pattern.readBackwards spelling) = spelling := by
  rw [Pattern.readBackwards, Pattern.readBackwards, String.toList_ofList, List.reverse_reverse,
    String.ofList_toList]

theorem contains_readBackwards (s : MatchSet) :
    (MatchSet.ofSpellings (s.markedSpellings.map Pattern.readBackwards)).contains word = true ↔
      s.contains (Pattern.readBackwards word) = true := by
  rw [MatchSet.contains_ofSpellings, ← MatchSet.exists_marked_iff]
  constructor
  · intro holds
    obtain ⟨backwards, member, rfl⟩ := holds
    obtain ⟨marked, found, rfl⟩ := List.mem_map.mp member
    refine ⟨marked, found, ?_⟩
    rw [upper_readBackwards, readBackwards_readBackwards]
  · intro holds
    obtain ⟨marked, member, same⟩ := holds
    refine ⟨Pattern.readBackwards marked, List.mem_map_of_mem member, ?_⟩
    rw [upper_readBackwards, ← same, readBackwards_readBackwards]

namespace IsMirrored

theorem capitalBackward (mirrored : g.IsMirrored) : g.backward.IsCapital := fun word member =>
  areCapitals_reverse.mp (mirrored.capital _ ((mirrored.mirrored word).mp member))

theorem contains_patternMatches (mirrored : g.IsMirrored) (p : Pattern) (limits : WalkLimits) :
    (g.patternMatches p limits).contains word = true ↔
      word ∈ g.vocabulary ∧ p.isMatch word = true ∧ limits.Admits word.toList := by
  rw [patternMatches, Pattern.matchesInBoth]
  split
  · rw [contains_readBackwards, Pattern.contains_matchesIn _ _ mirrored.capitalBackward,
      Pattern.readBackwards, String.toList_ofList, mirrored.mirrored, List.reverse_reverse,
      Pattern.reversed, Pattern.splits_reverse_iff, admits_reverse, mem_vocabulary_iff,
      Pattern.isMatch_iff]
  · rw [Pattern.contains_matchesIn _ _ mirrored.capital, mem_vocabulary_iff,
      Pattern.isMatch_iff]

/-- A rack finds the words that can be spelled from it, unless it has too many classes. -/
theorem contains_rackMatches (mirrored : g.IsMirrored) (rack : Rack) (subanagram : Bool)
    (limits : WalkLimits) :
    (g.rackMatches rack subanagram limits).contains word = true ↔
      rack.classes.length ≤ Rack.maxClasses ∧ word ∈ g.vocabulary ∧
        rack.spells word subanagram = true ∧ limits.Admits word.toList := by
  rw [rackMatches, Rack.contains_wordsIn _ _ _ mirrored.capital, mem_vocabulary_iff]

end IsMirrored

end WordGraph

end WordFinder
