import Mathlib
import WordFinder.Proofs.WordGraph

/-!
# Walks over inserted words

The tries and graphs that the words of a list build, inserted in the order of the list. A walk over
them finds exactly those words of the list that its rack spells or its pattern matches and that its
limits admit. For a pattern it makes no difference which of the two tries of a graph is walked.

The empty text is no word: inserting it changes nothing.
-/
set_option autoImplicit false

namespace WordFinder

theorem WalkLimits.admits_iff {limits : WalkLimits} {word : String} :
    limits.Admits word.toList ↔ limits.minLength ≤ word.length ∧
      word.length ≤ limits.maxLength ∧ ∀ c ∈ word.toList, c ∉ limits.excluded := by
  have allows (c : Char) : limits.allows c = true ↔ c ∉ limits.excluded := by
    simp [WalkLimits.allows]
  rw [← String.length_toList]
  constructor
  · intro admits
    exact ⟨admits.long, admits.short, fun c member => (allows c).mp (admits.allowed c member)⟩
  · intro holds
    obtain ⟨long, short, apart⟩ := holds
    exact ⟨long, short, fun c member => (allows c).mpr (apart c member)⟩

/-! ## Tries and graphs of lists of words -/

namespace Trie

def ofWords (words : List String) : Trie :=
  words.foldl (fun t word => t.insert word.toList) nil

theorem mem_words_foldl_insert (words : List String) (t : Trie) (letters : List Char) :
    letters ∈ (words.foldl (fun t word => t.insert word.toList) t).words ↔
      letters ∈ t.words ∨ (String.ofList letters ∈ words ∧ letters ≠ []) := by
  induction words generalizing t with
  | nil => simp
  | cons word words ih =>
    have same : letters = word.toList ↔ String.ofList letters = word := by
      rw [← String.toList_inj, String.toList_ofList]
    rw [List.foldl_cons, ih, mem_words_insert, List.mem_cons, same, or_assoc, or_and_right]
    simp only [← same]
    grind

theorem mem_words_ofWords {words : List String} {word : String} :
    word.toList ∈ (ofWords words).words ↔ word ∈ words ∧ word ≠ "" := by
  rw [ofWords, mem_words_foldl_insert, String.ofList_toList, ne_eq, String.toList_eq_nil_iff]
  simp [Trie.words]

theorem isCapital_ofWords {words : List String}
    (capitals : ∀ word ∈ words, AreCapitals word.toList) : (ofWords words).IsCapital := by
  intro letters member
  rw [← String.toList_ofList (l := letters)] at member ⊢
  exact capitals _ (mem_words_ofWords.mp member).1

end Trie

namespace WordGraph

theorem forward_ofWords (words : List String) : (ofWords words).forward = Trie.ofWords words := by
  rw [ofWords, Trie.ofWords, show Trie.nil = empty.forward from rfl]
  generalize empty = g
  induction words generalizing g with
  | nil => rfl
  | cons word words ih => exact ih (g.insert word)

theorem mem_vocabulary_ofWords {words : List String} {word : String} :
    word ∈ (ofWords words).vocabulary ↔ word ∈ words ∧ word ≠ "" := by
  rw [mem_vocabulary_iff, forward_ofWords, Trie.mem_words_ofWords]

theorem isMirrored_ofWords {words : List String}
    (capitals : ∀ word ∈ words, AreCapitals word.toList) : (ofWords words).IsMirrored := by
  have start := isSound_empty.isMirrored
  rw [ofWords]
  generalize empty = g at start
  induction words generalizing g with
  | nil => exact start
  | cons word words ih =>
    obtain ⟨first, others⟩ := List.forall_mem_cons.mp capitals
    exact ih others _ (start.insert first)

end WordGraph

/-! ## What walks find -/

/-- A rack with at most as many classes as it may have finds exactly the inserted words that it
spells and the limits admit. -/
theorem Rack.mem_wordsIn_ofWords {words : List String}
    (capitals : ∀ word ∈ words, AreCapitals word.toList) (rack : Rack)
    (few : rack.classes.length ≤ maxClasses) (subanagram : Bool) (limits : WalkLimits)
    (word : String) :
    word ∈ (rack.wordsIn subanagram limits (Trie.ofWords words)).words ↔
      word ∈ words ∧ rack.spells word subanagram = true ∧ limits.minLength ≤ word.length ∧
        word.length ≤ limits.maxLength ∧ ∀ c ∈ word.toList, c ∉ limits.excluded := by
  have spelledNonempty : rack.spells word subanagram = true → word ≠ "" := by
    rintro spelled rfl
    simp [spells] at spelled
  rw [MatchSet.mem_words_iff,
    rack.contains_wordsIn subanagram limits (Trie.isCapital_ofWords capitals) word,
    Trie.mem_words_ofWords, ← WalkLimits.admits_iff]
  constructor
  · intro holds
    obtain ⟨_, ⟨member, _⟩, spelled, admits⟩ := holds
    exact ⟨member, spelled, admits⟩
  · intro holds
    obtain ⟨member, spelled, admits⟩ := holds
    exact ⟨few, ⟨member, spelledNonempty spelled⟩, spelled, admits⟩

/-- Of two classes that accept an `A`, the `A` of `CAT` has to leave one to the `C`. -/
theorem Rack.mem_wordsIn_ofWords_overlap :
    let words := ["TACK", "CAT", "ACTS"]
    let rack : Rack := ⟨['T'], 0, [⟨['A', 'C']⟩, ⟨['A']⟩], false⟩
    (∀ word ∈ words, AreCapitals word.toList) ∧ rack.classes.length ≤ maxClasses ∧
      "CAT" ∈ (rack.wordsIn false {} (Trie.ofWords words)).words := by
  intro words rack
  have capitals : ∀ word ∈ words, AreCapitals word.toList := by simp [words, AreCapitals]
  have few : rack.classes.length ≤ maxClasses := by decide
  refine ⟨capitals, few, (mem_wordsIn_ofWords capitals rack few false {} "CAT").mpr ?_⟩
  have spelled : rack.spells "CAT" false = true := by decide +kernel
  exact ⟨by decide, spelled, by decide, by decide, by simp⟩

/-- A pattern finds the same words over the two tries of a graph as over the forward trie alone:
exactly the inserted words that it matches and the limits admit. -/
theorem WordGraph.mem_patternMatches_ofWords {words : List String}
    (capitals : ∀ word ∈ words, AreCapitals word.toList) (p : Pattern) (limits : WalkLimits) :
    ((ofWords words).patternMatches p limits).words =
        (p.matchesIn limits (Trie.ofWords words)).words ∧
      ∀ word, word ∈ ((ofWords words).patternMatches p limits).words ↔
        word ∈ words ∧ word ≠ "" ∧ p.isMatch word = true ∧ limits.minLength ≤ word.length ∧
          word.length ≤ limits.maxLength ∧ ∀ c ∈ word.toList, c ∉ limits.excluded := by
  have mirrored := isMirrored_ofWords capitals
  constructor
  · apply MatchSet.words_eq_of_contains
    intro word
    rw [mirrored.contains_patternMatches,
      p.contains_matchesIn limits (Trie.isCapital_ofWords capitals), mem_vocabulary_iff,
      forward_ofWords, Pattern.isMatch_iff]
  · intro word
    rw [MatchSet.mem_words_iff, mirrored.contains_patternMatches, mem_vocabulary_ofWords,
      WalkLimits.admits_iff, and_assoc]

/-- A star in the middle and one in front: the graph is walked backwards. -/
theorem WordGraph.mem_patternMatches_ofWords_backwards :
    let words := ["STING", "INGOT", "SINGING", "GIN"]
    let p : Pattern := ⟨[.star, .letter 'I', .star, .any, .letter 'G']⟩
    (∀ word ∈ words, AreCapitals word.toList) ∧
      "SINGING" ∈ ((ofWords words).patternMatches p {}).words := by
  intro words p
  have capitals : ∀ word ∈ words, AreCapitals word.toList := by simp [words, AreCapitals]
  refine ⟨capitals, ((mem_patternMatches_ofWords capitals p {}).2 "SINGING").mpr ?_⟩
  have matched : p.isMatch "SINGING" = true := by decide +kernel
  exact ⟨by decide, by decide, matched, by decide, by decide, by simp⟩

end WordFinder
