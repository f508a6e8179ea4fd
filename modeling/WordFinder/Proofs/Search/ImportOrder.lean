import Mathlib
import WordFinder.Proofs.Lexicon.Agreement
import WordFinder.Proofs.Lexicon.Imports
import WordFinder.Proofs.Search.Exact
import WordFinder.Proofs.Search.Listing

/-!
# The order of imports does not matter

Lexicons that agree answer every search alike, with the same marks, whatever the orders in which their
match sets list words. Two histories of imports that accept the same words, store the same definitions
and import the same stems lead to lexicons that agree, and to tries with as many nodes.
-/
set_option autoImplicit false

namespace WordFinder.Lexicon

variable {x y : Lexicon}

/-! ## Searches of lexicons that agree -/

namespace Agrees

theorem matchesOf (agrees : x.Agrees y) (limits : WalkLimits) (c : Condition) :
    (x.matchesOf limits c).Alike (y.matchesOf limits c) := by
  rw [Lexicon.matchesOf, Lexicon.matchesOf]
  cases c.kind
  case patternMatch =>
    cases Pattern.ofString? c.string with
    | none => exact .refl _
    | some p => exact agrees.patternMatches p limits
  case anagramMatch | subanagramMatch =>
    cases Rack.ofString? c.string with
    | none => exact .refl _
    | some rack => exact agrees.rackMatches rack _ limits
  all_goals exact .refl _

theorem matchesOfAll (agrees : x.Agrees y) (limits : WalkLimits) (matchers : List Condition) :
    (x.matchesOfAll limits matchers).Alike (y.matchesOfAll limits matchers) := by
  cases matchers with
  | nil => exact agrees.wordsWithin limits
  | cons c matchers =>
    have start := agrees.matchesOf limits c
    rw [Lexicon.matchesOfAll, Lexicon.matchesOfAll]
    generalize x.matchesOf limits c = found at start
    generalize y.matchesOf limits c = other at start
    induction matchers generalizing found other with
    | nil => exact start
    | cons d matchers ih => exact ih _ _ (start.inter (agrees.matchesOf limits d))

theorem meetsAll (agrees : x.Agrees y) (word : String) (conditions : List Condition) :
    x.meetsAll word conditions = y.meetsAll word conditions := by
  rw [Lexicon.meetsAll, Lexicon.meetsAll, funext (agrees.meets word)]

theorem meetsAny (agrees : x.Agrees y) (word : String) (conditions : List Condition) :
    x.meetsAny word conditions = y.meetsAny word conditions := by
  rw [Lexicon.meetsAny, Lexicon.meetsAny, funext (agrees.meets word)]

theorem findAll (agrees : x.Agrees y) (matchers filters : List Condition) (limits : WalkLimits) :
    (x.findAll matchers filters limits).Alike (y.findAll matchers filters limits) := by
  intro word
  rw [Lexicon.findAll, Lexicon.findAll,
    MatchSet.filterJudged_alike (x := x) _ (fun word => x.gives_judgeAll word filters),
    MatchSet.filterJudged_alike (x := y) _ (fun word => y.gives_judgeAll word filters)]
  exact (agrees.matchesOfAll limits matchers).filter
    (fun word _ => agrees.meetsAll word filters) word

theorem findAny (agrees : x.Agrees y) (matchers filters : List Condition) :
    (x.findAny matchers filters).Alike (y.findAny matchers filters) := by
  have matched : ∀ found other : MatchSet, found.Alike other →
      (matchers.foldl (fun found c => found.union (x.matchesOf {} c)) found).Alike
        (matchers.foldl (fun found c => found.union (y.matchesOf {} c)) other) := by
    induction matchers with
    | nil => exact fun _ _ alike => alike
    | cons c matchers ih => exact fun _ _ alike => ih _ _ (alike.union (agrees.matchesOf {} c))
  have judged : ((x.wordsWithin {}).filterJudged (x.judgeAny · filters)).Alike
      ((y.wordsWithin {}).filterJudged (y.judgeAny · filters)) := by
    intro word
    rw [MatchSet.filterJudged_alike (x := x) _ (fun word => x.gives_judgeAny word filters),
      MatchSet.filterJudged_alike (x := y) _ (fun word => y.gives_judgeAny word filters)]
    exact (agrees.wordsWithin {}).filter (fun word _ => agrees.meetsAny word filters) word
  rw [Lexicon.findAny, Lexicon.findAny]
  split
  · exact agrees.wordsWithin {}
  · split
    · exact matched _ _ (.refl _)
    · exact (matched _ _ (.refl _)).union judged

theorem findListed? (agrees : x.Agrees y) (spec : SearchSpec) :
    x.findListed? spec = y.findListed? spec := by
  have listed : x.listedWords = y.listedWords := by
    funext c
    rw [listedWords, listedWords, funext agrees.contains_graph]
  rw [Lexicon.findListed?, Lexicon.findListed?, listed]

theorem findOptimized (agrees : x.Agrees y) (spec : SearchSpec) :
    (x.findOptimized spec).Alike (y.findOptimized spec) := by
  rw [findOptimized_eq, findOptimized_eq, agrees.bag]
  split
  · exact (agrees.findAll _ _ _).limitByProbabilityOrder _ _
  · exact (agrees.findAny _ _).limitByProbabilityOrder _ _

theorem find (agrees : x.Agrees y) (spec : SearchSpec) : (x.find spec).Alike (y.find spec) := by
  by_cases normal : spec.optimize.2 = .normal
  · rw [find_of_normal normal, find_of_normal normal, agrees.findListed?]
    cases y.findListed? spec.optimize.1 with
    | none =>
      rw [Option.getD_none, Option.getD_none]
      exact agrees.findOptimized _
    | some found =>
      rw [Option.getD_some, Option.getD_some]
      exact .refl _
  · rw [find_of_not_normal normal, find_of_not_normal normal]
    exact .refl _

end Agrees

/-! ## Histories that lead to lexicons that agree -/

/-- Two histories that accept the same words, leave the same definition of each word and import the
same stems of each length. -/
structure SameImports (x : Lexicon) (first second : List Import) : Prop where
  words : ∀ word, word ∈ acceptedWords first ↔ word ∈ acceptedWords second
  definitions : ∀ word,
    (x.after first).glossary.entries word = (x.after second).glossary.entries word
  stems : ∀ length stem,
    stem ∈ (x.after first).stemsOfLength length ↔ stem ∈ (x.after second).stemsOfLength length

theorem SameImports.agrees {name distribution : String} {first second : List Import}
    (same : x.SameImports first second) (made : create name distribution = .ok x) :
    (x.after first).Agrees (x.after second) := by
  have hasFirst := (hasAccepted_create made).after first
  have hasSecond := (hasAccepted_create made).after second
  obtain ⟨nameFirst, bagFirst⟩ := same_after x first
  obtain ⟨nameSecond, bagSecond⟩ := same_after x second
  exact
    { name := by rw [nameFirst, nameSecond]
      bag := by rw [bagFirst, bagSecond]
      firstSound := hasFirst.sound
      secondSound := hasSecond.sound
      words := fun word => by
        rw [hasFirst.mem_vocabulary_iff, hasSecond.mem_vocabulary_iff]
        exact same.words word
      entries := same.definitions
      stems := same.stems }

/-- Whatever the order in which words, definitions and stems were imported, every search gives the
same words with the same marks, and there are as many words and as many nodes in both tries. The words
and marks stay the same when match sets list their words in any two orders. -/
theorem search_of_sameImports {name distribution : String} {first second : List Import}
    (made : create name distribution = .ok x) (same : x.SameImports first second) :
    (∀ spec, (x.after first).search spec = (x.after second).search spec ∧
        (x.after first).searchMarked spec = (x.after second).searchMarked spec) ∧
      (x.after first).wordCount = (x.after second).wordCount ∧
      (x.after first).graph.forward.nodeCount = (x.after second).graph.forward.nodeCount ∧
      (x.after first).graph.backward.nodeCount = (x.after second).graph.backward.nodeCount ∧
      ∀ (l m : Listing) (spec : SearchSpec),
        l.search (x.after first) spec = m.search (x.after second) spec ∧
          l.searchMarked (x.after first) spec = m.searchMarked (x.after second) spec := by
  have agrees := same.agrees made
  have reachedFirst := (Reached.created made).after first
  have reachedSecond := (Reached.created made).after second
  have answers (spec : SearchSpec) : (x.after first).search spec = (x.after second).search spec ∧
      (x.after first).searchMarked spec = (x.after second).searchMarked spec :=
    ⟨(agrees.find spec).words_eq, (agrees.find spec).markedSpellings_eq⟩
  refine ⟨answers, agrees.wordCount, ?_, ?_, fun l m spec => ?_⟩
  · exact Trie.nodeCount_eq_of_words agrees.firstSound.forwardProper
      agrees.secondSound.forwardProper reachedFirst.isPruned.1 reachedSecond.isPruned.1
      (WordGraph.mem_forward_iff agrees.words)
  · exact Trie.nodeCount_eq_of_words agrees.firstSound.backwardProper
      agrees.secondSound.backwardProper reachedFirst.isPruned.2 reachedSecond.isPruned.2
      (agrees.firstSound.mem_backward_iff agrees.secondSound agrees.words)
  · obtain ⟨words, marked⟩ := l.search_eq (x.after first) spec
    obtain ⟨otherWords, otherMarked⟩ := m.search_eq (x.after second) spec
    rw [words, marked, otherWords, otherMarked]
    exact answers spec

/-- Words, a definition and stems imported in two orders. -/
theorem search_of_sameImports_cat :
    let x : Lexicon := { name := defaultName, bag := ⟨[]⟩ }
    let first : List Import := [.ofText "act a deed\ncat" true, .ofStems "ab\ncd"]
    let second : List Import := [.ofStems "cd\nab", .ofWord "Cat" none, .ofWord "x-y" none,
      .ofWord "ACT" (some "a deed")]
    x.SameImports first second ∧
      (x.after first).searchMarked (.allOf [.ofText .patternMatch "?a*"]) =
        (x.after second).searchMarked (.allOf [.ofText .patternMatch "?a*"]) := by
  intro x first second
  have made : create defaultName "" = .ok x := rfl
  have acceptedFirst : acceptedWords first = ["ACT", "CAT"] := by decide +kernel
  have acceptedSecond : acceptedWords second = ["CAT", "ACT"] := by decide +kernel
  have stemsFirst : (x.after first).stems = ["AB", "CD"] := by decide +kernel
  have stemsSecond : (x.after second).stems = ["CD", "AB"] := by decide +kernel
  have defined : (x.after first).glossary.entriesOf.toList =
      (x.after second).glossary.entriesOf.toList := by decide +kernel
  have same : x.SameImports first second := by
    refine ⟨fun word => ?_, fun word => ?_, fun length stem => ?_⟩
    · rw [acceptedFirst, acceptedSecond]
      simp [or_comm]
    · rw [Glossary.entries, Glossary.entries,
        (Std.TreeMap.equiv_iff_toList_eq.mpr defined).getElem?_eq]
    · simp [stemsOfLength, stemsFirst, stemsSecond, or_comm]
  exact ⟨same, ((search_of_sameImports made same).1 _).2⟩

end WordFinder.Lexicon
