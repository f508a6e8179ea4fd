import Mathlib
import WordFinder.Proofs.Search.Judge
import WordFinder.Proofs.Search.Canonical

/-!
# What the walks of a search find

A walk for a condition finds the words that meet the condition and that the limits of the search
admit. The limits that conditions set admit every word that meets the conditions.
-/
set_option autoImplicit false

namespace WordFinder

/-- A subanagram that walks do not give up on. -/
def Condition.HasFewClasses (c : Condition) : Prop :=
  c.kind = .subanagramMatch → c.negated = false →
    SearchString.classCount c.string ≤ Rack.maxClasses

/-! ## Limits -/

namespace WalkLimits

variable {x : Lexicon} {word : String} {limits : WalkLimits} {c : Condition}

theorem admits_tighten (storable : IsStorable word.toList) (admits : limits.Admits word.toList)
    (meets : x.meets word c = true) : (limits.tighten c).Admits word.toList := by
  have nonempty : 0 < word.length := storable.nonempty
  have short : word.length ≤ maxWordLength := storable.short
  obtain ⟨long, notLong, allowed⟩ := admits
  rw [String.length_toList] at long notLong
  unfold tighten
  cases kind : c.kind
  case length =>
    simp only [Lexicon.meets, kind] at meets
    obtain ⟨least, most⟩ := Condition.admits_iff.mp meets
    simp only at least most
    refine ⟨?_, ?_, allowed⟩
    · rw [String.length_toList]
      simp only
      omega
    · rw [String.length_toList]
      simp only
      omega
  case includesLetters =>
    cases negated : c.negated with
    | false => exact ⟨long, notLong, allowed⟩
    | true =>
      refine ⟨long, notLong, fun l member => ?_⟩
      have old := allowed l member
      simp only [if_true]
      simp only [Lexicon.meets, kind, Condition.includesLetters, negated, if_true,
        List.all_eq_true, Bool.not_eq_true', List.contains_eq_mem, decide_eq_false_iff_not] at meets
      simp only [allows, Bool.not_eq_true', List.contains_eq_mem, decide_eq_false_iff_not,
        List.mem_append, not_or] at old ⊢
      exact ⟨old, fun refused => meets l refused member⟩
  all_goals exact ⟨long, notLong, allowed⟩

theorem admits_foldl_tighten (storable : IsStorable word.toList) {conditions : List Condition}
    (admits : limits.Admits word.toList) (meets : x.meetsAll word conditions = true) :
    (conditions.foldl tighten limits).Admits word.toList := by
  induction conditions generalizing limits with
  | nil => exact admits
  | cons c conditions ih =>
    rw [Lexicon.meetsAll, List.all_cons, Bool.and_eq_true] at meets
    exact ih (admits_tighten storable admits meets.1) meets.2

theorem admits_ofConditions (storable : IsStorable word.toList) {conditions : List Condition}
    (meets : x.meetsAll word conditions = true) : (ofConditions conditions).Admits word.toList :=
  admits_foldl_tighten storable
    ⟨storable.nonempty, storable.short, fun l _ => by simp [allows]⟩ meets

end WalkLimits

/-! ## Sets of several conditions -/

namespace MatchSet

theorem contains_foldl_inter {ι : Type} (find : ι → MatchSet) (conditions : List ι) (s : MatchSet)
    (word : String) :
    (conditions.foldl (fun found c => found.inter (find c)) s).contains word = true ↔
      s.contains word = true ∧ ∀ c ∈ conditions, (find c).contains word = true := by
  induction conditions generalizing s with
  | nil => simp
  | cons c conditions ih => rw [List.foldl_cons, ih, contains_inter, List.forall_mem_cons, and_assoc]

theorem contains_foldl_union {ι : Type} (find : ι → MatchSet) (conditions : List ι) (s : MatchSet)
    (word : String) :
    (conditions.foldl (fun found c => found.union (find c)) s).contains word = true ↔
      s.contains word = true ∨ ∃ c ∈ conditions, (find c).contains word = true := by
  induction conditions generalizing s with
  | nil => simp
  | cons c conditions ih => rw [List.foldl_cons, ih, contains_union, or_assoc]; simp

end MatchSet

/-! ## Walks for conditions -/

namespace Lexicon

variable {x : Lexicon} {word : String} {c : Condition}

theorem few_classes_of_spells {tokens : List Token} (storable : IsStorable word.toList)
    (spelled : (Rack.ofTokens tokens).spells word false = true) :
    (Rack.ofTokens tokens).classes.length ≤ Rack.maxClasses := by
  have slots := Rack.slotCount_le_length storable.capitals spelled
  have short : word.length ≤ Rack.maxClasses := Nat.le_trans storable.short (by decide)
  rw [Rack.slotCount] at slots
  omega

theorem few_classes_of_condition (storable : IsStorable word.toList) (positive : c.negated = false)
    (fewClasses : c.HasFewClasses) {tokens : List Token}
    (read : Token.ofString? c.string = some tokens)
    (spelled : (Rack.ofTokens tokens).spells word (c.kind = .subanagramMatch) = true) :
    (Rack.ofTokens tokens).classes.length ≤ Rack.maxClasses := by
  by_cases subset : c.kind = .subanagramMatch
  · rw [SearchString.length_classes_of_ofString? read]
    exact fewClasses subset positive
  · rw [decide_eq_false subset] at spelled
    exact few_classes_of_spells storable spelled

theorem Reached.contains_matchesOf (reached : x.Reached) (limits : WalkLimits)
    (isMatch : c.isMatch = true) (fewClasses : c.HasFewClasses) :
    (x.matchesOf limits c).contains word = true ↔
      word ∈ x.vocabulary ∧ x.meets word c = true ∧ limits.Admits word.toList := by
  rw [Condition.isMatch, Bool.and_eq_true, Bool.not_eq_true'] at isMatch
  obtain ⟨isMatch, positive⟩ := isMatch
  unfold matchesOf meets
  cases kind : c.kind
  case patternMatch =>
    simp only
    cases Pattern.ofString? c.string with
    | none => simp [MatchSet.contains_empty, Condition.patternVerdict]
    | some p =>
      simp only [reached.isSound.isMirrored.contains_patternMatches, Condition.patternVerdict,
        Option.any_some, Condition.verdict, positive, Bool.bne_false]
      rfl
  case anagramMatch | subanagramMatch =>
    simp only [Rack.ofString?]
    cases read : Token.ofString? c.string with
    | none => simp [MatchSet.contains_empty, Condition.rackVerdict]
    | some tokens =>
      simp only [Option.map_some, reached.isSound.isMirrored.contains_rackMatches,
        Condition.rackVerdict, Option.any_some, Condition.verdict, positive, Bool.bne_false, kind]
      constructor
      · intro holds
        obtain ⟨_, member, spelled, admits⟩ := holds
        exact ⟨member, spelled, admits⟩
      · intro holds
        obtain ⟨member, spelled, admits⟩ := holds
        refine ⟨?_, member, spelled, admits⟩
        apply few_classes_of_condition (reached.storable member) positive fewClasses read
        rw [kind]
        exact spelled
  all_goals rw [kind] at isMatch; contradiction

theorem Reached.contains_matchesOfAll (reached : x.Reached) (limits : WalkLimits)
    {matchers : List Condition} (areMatches : ∀ c ∈ matchers, c.isMatch = true)
    (fewClasses : ∀ c ∈ matchers, c.HasFewClasses) :
    (x.matchesOfAll limits matchers).contains word = true ↔
      word ∈ x.vocabulary ∧ x.meetsAll word matchers = true ∧ limits.Admits word.toList := by
  have found : ∀ c ∈ matchers, ((x.matchesOf limits c).contains word = true ↔
      word ∈ x.vocabulary ∧ x.meets word c = true ∧ limits.Admits word.toList) :=
    fun c member => reached.contains_matchesOf limits (areMatches c member) (fewClasses c member)
  cases matchers with
  | nil =>
    rw [matchesOfAll, reached.contains_wordsWithin]
    simp [meetsAll]
  | cons c matchers =>
    obtain ⟨first, others⟩ := List.forall_mem_cons.mp found
    rw [matchesOfAll, MatchSet.contains_foldl_inter, first, meetsAll, List.all_cons,
      Bool.and_eq_true, List.all_eq_true]
    constructor
    · intro holds
      obtain ⟨⟨member, meets, admits⟩, foundOthers⟩ := holds
      exact ⟨member, ⟨meets, fun d listed => ((others d listed).mp (foundOthers d listed)).2.1⟩,
        admits⟩
    · intro holds
      obtain ⟨member, ⟨meets, meetsOthers⟩, admits⟩ := holds
      exact ⟨⟨member, meets, admits⟩,
        fun d listed => (others d listed).mpr ⟨member, meetsOthers d listed, admits⟩⟩

theorem Reached.contains_findAll (reached : x.Reached) (limits : WalkLimits)
    {matchers : List Condition} (filters : List Condition)
    (areMatches : ∀ c ∈ matchers, c.isMatch = true)
    (fewClasses : ∀ c ∈ matchers, c.HasFewClasses) :
    (x.findAll matchers filters limits).contains word = true ↔
      word ∈ x.vocabulary ∧ x.meetsAll word matchers = true ∧ x.meetsAll word filters = true ∧
        limits.Admits word.toList := by
  rw [findAll, MatchSet.contains_filterJudged (x := x) fun word => x.gives_judgeAll word filters,
    reached.contains_matchesOfAll limits areMatches fewClasses]
  constructor
  · intro holds
    obtain ⟨⟨member, matched, admits⟩, filtered⟩ := holds
    exact ⟨member, matched, filtered, admits⟩
  · intro holds
    obtain ⟨member, matched, filtered, admits⟩ := holds
    exact ⟨⟨member, matched, admits⟩, filtered⟩

/-- The words found for any condition of a search; without conditions, every word. -/
theorem Reached.contains_findAny (reached : x.Reached) {matchers : List Condition}
    (filters : List Condition) (areMatches : ∀ c ∈ matchers, c.isMatch = true)
    (fewClasses : ∀ c ∈ matchers, c.HasFewClasses) :
    (x.findAny matchers filters).contains word = true ↔
      word ∈ x.vocabulary ∧ ((matchers = [] ∧ filters = []) ∨ x.meetsAny word matchers = true ∨
        x.meetsAny word filters = true) := by
  have whole : (x.wordsWithin {}).contains word = true ↔ word ∈ x.vocabulary := by
    rw [reached.contains_wordsWithin, and_iff_left_of_imp]
    exact reached.isSound.admits_default
  have matched : (matchers.foldl (fun found c => MatchSet.union found (x.matchesOf {} c))
      MatchSet.empty).contains word = true ↔ word ∈ x.vocabulary ∧ x.meetsAny word matchers = true := by
    rw [MatchSet.contains_foldl_union, MatchSet.contains_empty, meetsAny, List.any_eq_true]
    simp only [Bool.false_eq_true, false_or]
    constructor
    · intro holds
      obtain ⟨c, listed, found⟩ := holds
      obtain ⟨member, meets, _⟩ := (reached.contains_matchesOf {} (areMatches c listed)
        (fewClasses c listed)).mp found
      exact ⟨member, c, listed, meets⟩
    · intro holds
      obtain ⟨member, c, listed, meets⟩ := holds
      exact ⟨c, listed, (reached.contains_matchesOf {} (areMatches c listed)
        (fewClasses c listed)).mpr ⟨member, meets, reached.isSound.admits_default member⟩⟩
  rw [findAny]
  split
  · next none =>
    rw [Bool.and_eq_true, List.isEmpty_iff, List.isEmpty_iff] at none
    rw [whole, and_iff_left (Or.inl none)]
  · next some =>
    rw [Bool.and_eq_true, List.isEmpty_iff, List.isEmpty_iff] at some
    split
    · next noFilters =>
      rw [List.isEmpty_iff] at noFilters
      subst noFilters
      rw [matched, or_iff_right some]
      simp [meetsAny]
    · rw [MatchSet.contains_union, matched,
        MatchSet.contains_filterJudged (x := x) fun word => x.gives_judgeAny word filters, whole,
        or_iff_right some, ← and_or_left]

end Lexicon

end WordFinder
