import Mathlib
import WordFinder.Proofs.Search.Exact

/-!
# Marked results line up with plain ones

A search lists its words and their marked spellings in the same order, and each marked spelling is
its word with some letters in lower case. Only walks for match conditions mark letters: what is found
by looking up word lists or by judging every word is spelled exactly, and limits and judgements keep
the spellings of the words that they keep.
-/
set_option autoImplicit false

namespace WordFinder

open Text (upper)

namespace SearchSpec

theorem isMatch_optimize {spec : SearchSpec} (normal : spec.optimize.2 = .normal)
    (noMatch : ∀ c ∈ spec.conditions, c.isMatch = false) :
    ∀ c ∈ spec.optimize.1.conditions, c.isMatch = false := by
  intro c member
  rcases isWindow_or_canonical_of_mem normal member with isWindow | ⟨written, listed, rfl⟩
  · rw [Condition.isMatch, ConditionKind.isMatch_of_isWindow isWindow, Bool.false_and]
  · rw [Condition.isMatch, Condition.kind_canonical, Condition.negated_canonical]
    exact noMatch written listed

end SearchSpec

namespace Lexicon

/-! ## What is found without walks for match conditions -/

theorem isExact_wordsWithin (x : Lexicon) (limits : WalkLimits) : (x.wordsWithin limits).IsExact :=
  MatchSet.isExact_ofSpellings_words _

theorem isExact_findAll (x : Lexicon) (filters : List Condition) (limits : WalkLimits) :
    (x.findAll [] filters limits).IsExact :=
  MatchSet.SpelledBy.filter (x.isExact_wordsWithin limits) _

theorem isExact_findAny (x : Lexicon) (filters : List Condition) :
    (x.findAny [] filters).IsExact := by
  rw [findAny]
  split
  · exact x.isExact_wordsWithin {}
  · split
    · exact .empty _
    · exact MatchSet.IsExact.union (.empty _) (.filter (x.isExact_wordsWithin {}) _)

theorem upper_of_mem_listedWords {x : Lexicon} {c : Condition} {word : String}
    (listed : word ∈ x.listedWords c) : word = upper word := by
  obtain ⟨written, _, rfl⟩ := List.mem_map.mp (List.mem_filter.mp listed).1
  exact (Text.upper_upper written).symm

theorem isExact_findListed? {x : Lexicon} {spec : SearchSpec} {found : MatchSet}
    (listed : x.findListed? spec = some found) : found.IsExact := by
  obtain ⟨_, c, conditions, _, rfl⟩ := findListed?_eq_some listed
  refine .ofSpellings fun word member => ?_
  rw [mem_foldl_lists] at member
  split at member
  · exact upper_of_mem_listedWords member.1
  · rcases member with first | ⟨listed, other, member⟩
    · exact upper_of_mem_listedWords first
    · obtain ⟨d, _, rfl⟩ := List.mem_map.mp other
      exact upper_of_mem_listedWords member

theorem isExact_findOptimized (x : Lexicon) {spec : SearchSpec}
    (noMatch : ∀ c ∈ spec.conditions, c.isMatch = false) : (x.findOptimized spec).IsExact := by
  have noMatchers : spec.conditions.filter (·.isMatch) = [] := by
    rw [List.filter_eq_nil_iff]
    exact fun c member => Bool.eq_false_iff.mp (noMatch c member)
  have found (keep : MatchSet) (exact : keep.IsExact) (limits : List Condition) :
      (keep.limitByProbabilityOrder limits x.bag).IsExact :=
    (MatchSet.SpelledBy.filter exact _).of_alike fun word =>
      (keep.limitByProbabilityOrder_alike limits x.bag word).symm
  rw [findOptimized_eq, noMatchers]
  apply found
  split
  · exact x.isExact_findAll _ _
  · exact x.isExact_findAny _

theorem isExact_find (x : Lexicon) {spec : SearchSpec}
    (noMatch : ∀ c ∈ spec.conditions, c.isMatch = false) : (x.find spec).IsExact := by
  by_cases normal : spec.optimize.2 = .normal
  · rw [find_of_normal normal]
    cases listed : x.findListed? spec.optimize.1 with
    | some found => exact isExact_findListed? listed
    | none => exact x.isExact_findOptimized (SearchSpec.isMatch_optimize normal noMatch)
  · rw [find_of_not_normal normal]
    exact .empty _

/-! ## Marked and plain results -/

/-- Marking a result changes letters to lower case and nothing else, and without a match condition that
is not negated it changes nothing. -/
theorem searchMarked_lines_up (x : Lexicon) (spec : SearchSpec) :
    (x.searchMarked spec).length = (x.search spec).length ∧
      (∀ i : Nat, (x.searchMarked spec)[i]?.map upper = (x.search spec)[i]?) ∧
      ((∀ c ∈ spec.conditions, ¬(c.kind.isMatch = true ∧ c.negated = false)) →
        x.searchMarked spec = x.search spec) := by
  refine ⟨MatchSet.length_markedSpellings _, fun i => ?_, fun noMatch => ?_⟩
  · rw [searchMarked, search, ← MatchSet.map_upper_markedSpellings, List.getElem?_map]
  · apply MatchSet.IsExact.markedSpellings_eq
    apply x.isExact_find
    intro c member
    apply Bool.eq_false_iff.mpr
    intro isMatch
    rw [Condition.isMatch, Bool.and_eq_true, Bool.not_eq_true'] at isMatch
    exact noMatch c member isMatch

/-- A negated pattern marks no letter. -/
theorem searchMarked_lines_up_negated :
    let spec := SearchSpec.allOf [(Condition.ofText .patternMatch "?a?").negate]
    (∀ c ∈ spec.conditions, ¬(c.kind.isMatch = true ∧ c.negated = false)) ∧
      actAndCat.searchMarked spec = actAndCat.search spec := by
  have negated : ∀ c ∈ [(Condition.ofText .patternMatch "?a?").negate],
      ¬(c.kind.isMatch = true ∧ c.negated = false) := by decide
  exact ⟨negated, (searchMarked_lines_up actAndCat (.allOf _)).2.2 negated⟩

end Lexicon

end WordFinder
