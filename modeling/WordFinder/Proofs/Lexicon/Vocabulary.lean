import Mathlib
import WordFinder.Lexicon
import WordFinder.Proofs.Trie.Nodes
import WordFinder.Proofs.WordGraph

/-!
# Lexicons that imports build

Every lexicon is built from one without words by imports of words, word lists and stems. Imports keep
the word graph sound: only storable words enter it, and they enter both tries.
-/
set_option autoImplicit false

namespace WordFinder.Lexicon

inductive Reached : Lexicon → Prop
  | created {name distribution : String} {x : Lexicon} (made : create name distribution = .ok x) :
      Reached x
  | word {x larger : Lexicon} {word : String} {definition? : Option String} (before : Reached x)
      (added : x.addWord? word definition? = some larger) : Reached larger
  | text {x : Lexicon} (before : Reached x) (text : String) (withDefinitions : Bool) :
      Reached (x.addText text withDefinitions).1
  | stems {x : Lexicon} (before : Reached x) (text : String) : Reached (x.addStems text).1

def vocabulary (x : Lexicon) : List String :=
  x.graph.vocabulary

variable {x : Lexicon} {word : String}

/-! ## Imports -/

theorem exists_bag_of_create {name distribution : String}
    (made : create name distribution = .ok x) : ∃ bag, x = { name, bag } := by
  unfold create at made
  cases bag : TileBag.ofDistribution distribution with
  | error cause =>
    rw [bag] at made
    contradiction
  | ok bag' =>
    rw [bag] at made
    cases made
    exact ⟨bag', rfl⟩

theorem storable_of_acceptable? {stored : String} (accepted : acceptable? word = some stored) :
    IsStorable stored.toList := by
  simp only [acceptable?] at accepted
  split at accepted
  · next valid =>
    cases accepted
    simp only [Bool.and_eq_true, decide_eq_true_eq] at valid
    obtain ⟨⟨nonempty, short⟩, capitals⟩ := valid
    exact ⟨List.all_eq_true.mp capitals, nonempty, short⟩
  · contradiction

theorem graph_addWord? {larger : Lexicon} {definition? : Option String}
    (added : x.addWord? word definition? = some larger) :
    ∃ stored, acceptable? word = some stored ∧ larger.graph = x.graph.insert stored := by
  obtain ⟨stored, accepted, rfl⟩ := Option.map_eq_some_iff.mp added
  exact ⟨stored, accepted, rfl⟩

section Induction

variable {P : WordGraph → Prop}
  (insert : ∀ (g : WordGraph) (word : String), P g → IsStorable word.toList → P (g.insert word))

include insert

theorem graph_addWord?_induction {larger : Lexicon} {definition? : Option String}
    (before : P x.graph) (added : x.addWord? word definition? = some larger) : P larger.graph := by
  obtain ⟨stored, accepted, same⟩ := graph_addWord? added
  rw [same]
  exact insert x.graph stored before (storable_of_acceptable? accepted)

theorem graph_addEntries_induction (entries : List WordListEntry) (withDefinitions : Bool)
    (before : P x.graph) : P (x.addEntries entries withDefinitions).1.graph := by
  unfold addEntries
  generalize 0 = count
  induction entries generalizing x count with
  | nil => exact before
  | cons entry entries ih =>
    simp only [List.foldl_cons]
    cases added : x.addWord? entry.word (if withDefinitions then some entry.definition else none) with
    | none =>
      simp only
      exact ih before count
    | some larger =>
      simp only
      exact ih (graph_addWord?_induction insert before added) (count + 1)

/-- What holds of the graph without words and is kept by every word that can be stored holds of the
graph of every lexicon. -/
theorem Reached.graph_induction (empty : P .empty) (reached : x.Reached) : P x.graph := by
  induction reached with
  | created made =>
    obtain ⟨bag, rfl⟩ := exists_bag_of_create made
    exact empty
  | word before added ih => exact graph_addWord?_induction insert ih added
  | text before text withDefinitions ih =>
    exact graph_addEntries_induction insert _ withDefinitions ih
  | stems before text ih => exact ih

end Induction

theorem Reached.isSound (reached : x.Reached) : x.graph.IsSound :=
  reached.graph_induction (fun _ _ sound storable => sound.insert storable)
    WordGraph.isSound_empty

/-- Whatever was imported, every node of both tries is on the way to a word. -/
theorem Reached.isPruned (reached : x.Reached) :
    x.graph.forward.IsPruned ∧ x.graph.backward.IsPruned :=
  reached.graph_induction (P := fun g => g.forward.IsPruned ∧ g.backward.IsPruned)
    (fun _ _ pruned _ => ⟨pruned.1.insert _, pruned.2.insert _⟩)
    ⟨Trie.isPruned_nil, Trie.isPruned_nil⟩

/-! ## Words of a lexicon -/

theorem Reached.storable (reached : x.Reached) (member : word ∈ x.vocabulary) :
    IsStorable word.toList :=
  reached.isSound.storable_of_mem member

theorem Reached.contains_iff (reached : x.Reached) :
    x.contains word = true ↔ Text.upper word ∈ x.vocabulary :=
  reached.isSound.contains_iff

theorem Reached.nodup_vocabulary (reached : x.Reached) : x.vocabulary.Nodup :=
  reached.isSound.nodup_vocabulary

theorem length_vocabulary (x : Lexicon) : x.vocabulary.length = x.wordCount := by
  rw [wordCount, WordGraph.wordCount, ← Trie.length_words, vocabulary, WordGraph.vocabulary,
    List.length_map]

theorem Reached.upper_of_mem (reached : x.Reached) (member : word ∈ x.vocabulary) :
    Text.upper word = word :=
  Text.upper_of_capitals (reached.storable member).capitals

theorem Reached.contains_wordsWithin (reached : x.Reached) (limits : WalkLimits) :
    (x.wordsWithin limits).contains word = true ↔
      word ∈ x.vocabulary ∧ limits.Admits word.toList := by
  have every (word : String) : Pattern.isMatch ⟨[.star]⟩ word = true := by
    rw [Pattern.isMatch_iff]
    have run := Pattern.Splits.star word.toList .nil
    rwa [List.append_nil] at run
  have found (word : String) : (x.graph.patternMatches ⟨[.star]⟩ limits).contains word = true ↔
      word ∈ x.vocabulary ∧ limits.Admits word.toList := by
    rw [reached.isSound.isMirrored.contains_patternMatches, every]
    simp [vocabulary]
  rw [wordsWithin, MatchSet.contains_ofSpellings]
  constructor
  · intro holds
    obtain ⟨marked, member, rfl⟩ := holds
    rw [MatchSet.mem_words_iff, found] at member
    rwa [reached.upper_of_mem member.1]
  · intro within
    exact ⟨word, MatchSet.mem_words_iff.mpr ((found word).mpr within),
      (reached.upper_of_mem within.1).symm⟩

/-! ## A small lexicon -/

def actAndCat : Lexicon :=
  (addText { name := defaultName, bag := ⟨[]⟩ } "act\ncat" false).1

theorem reached_actAndCat : actAndCat.Reached :=
  .text (.created (show create defaultName "" = .ok _ from rfl)) _ _

theorem vocabulary_actAndCat : actAndCat.vocabulary = ["ACT", "CAT"] := by
  decide +kernel

theorem cat_mem_vocabulary : "CAT" ∈ actAndCat.vocabulary := by
  rw [vocabulary_actAndCat]
  exact List.mem_cons_of_mem _ List.mem_cons_self

end WordFinder.Lexicon
