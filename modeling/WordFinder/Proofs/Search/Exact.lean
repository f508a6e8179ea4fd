import Mathlib
import WordFinder.Proofs.Probability.Limit
import WordFinder.Proofs.Search.Optimize
import WordFinder.Proofs.Search.Walk

/-!
# Searches find exactly what they ask for

The walks, the look-up of word lists and the judgements of an optimized search find the words of the
vocabulary that meet the conditions as they were written. The limits by probability order of the
search then act on exactly these words.
-/
set_option autoImplicit false

namespace WordFinder

namespace Lexicon

variable {x : Lexicon} {word : String}

/-- The words that the limits of a search by probability order choose from: those that meet all
conditions, or at least one that is not such a limit; every word if there is no other condition. -/
def candidates (x : Lexicon) (spec : SearchSpec) : List String :=
  let others := spec.conditions.filter (·.kind != .probabilityOrderLimit)
  if spec.conjunction then x.vocabulary.filter (x.meetsAll · spec.conditions)
  else if others.isEmpty then x.vocabulary
  else x.vocabulary.filter (x.meetsAny · others)

theorem mem_candidates_of_all {spec : SearchSpec} (all : spec.conjunction = true) :
    word ∈ x.candidates spec ↔
      word ∈ x.vocabulary ∧ x.meetsAll word spec.conditions = true := by
  simp only [candidates, all, if_true, List.mem_filter]

theorem mem_candidates_of_any {spec : SearchSpec} (any : spec.conjunction = false) :
    word ∈ x.candidates spec ↔ word ∈ x.vocabulary ∧
      (spec.conditions.filter (·.kind != .probabilityOrderLimit) = [] ∨
        x.meetsAny word (spec.conditions.filter (·.kind != .probabilityOrderLimit)) = true) := by
  simp only [candidates, any, Bool.false_eq_true, if_false]
  split
  · next none =>
    rw [List.isEmpty_iff] at none
    rw [and_iff_left (Or.inl none)]
  · next some =>
    rw [List.isEmpty_iff] at some
    rw [List.mem_filter, or_iff_right some]

/-! ## Word lists -/

theorem Reached.contains_ofSpellings (reached : x.Reached) {words : List String}
    (known : ∀ marked ∈ words, marked ∈ x.vocabulary) :
    (MatchSet.ofSpellings words).contains word = true ↔ word ∈ words := by
  rw [MatchSet.contains_ofSpellings]
  constructor
  · intro holds
    obtain ⟨marked, member, rfl⟩ := holds
    rwa [reached.upper_of_mem (known marked member)]
  · intro member
    exact ⟨word, member, (reached.upper_of_mem (known word member)).symm⟩

theorem Reached.mem_listedWords (reached : x.Reached) {c : Condition} :
    word ∈ x.listedWords c ↔ word ∈ x.vocabulary ∧ c.listsWord word = true := by
  rw [listedWords, List.mem_filter, reached.isSound.contains_iff, List.mem_map,
    Condition.listsWord, List.any_eq_true, and_comm]
  refine and_congr_right fun member => exists_congr fun listed => and_congr_right fun _ => ?_
  rw [beq_iff_eq, reached.upper_of_mem member]

theorem Reached.mem_listedWords_iff_meets (reached : x.Reached) {c : Condition}
    (isList : c.kind = .inWordList) (positive : c.negated = false) :
    word ∈ x.listedWords c ↔ word ∈ x.vocabulary ∧ x.meets word c = true := by
  rw [reached.mem_listedWords, meets, isList]
  simp only [Condition.verdict, positive, Bool.bne_false]

theorem mem_foldl_lists {others : List (List String)} {first : List String} (all : Bool) :
    word ∈ others.foldl
        (fun found listed => if all then found.filter listed.contains else found ++ listed) first ↔
      if all then word ∈ first ∧ ∀ listed ∈ others, word ∈ listed
      else word ∈ first ∨ ∃ listed ∈ others, word ∈ listed := by
  induction others generalizing first with
  | nil => cases all <;> simp
  | cons listed others ih =>
    rw [List.foldl_cons, ih]
    cases all with
    | true => simp [List.mem_filter, and_assoc]
    | false => simp [or_assoc]

theorem findListed?_eq_some {spec : SearchSpec} {found : MatchSet}
    (listed : x.findListed? spec = some found) :
    (∀ c ∈ spec.conditions, c.kind = .inWordList ∧ c.negated = false) ∧
      ∃ c conditions, spec.conditions = c :: conditions ∧
        found = .ofSpellings ((conditions.map x.listedWords).foldl
          (fun found listed =>
            if spec.conjunction then found.filter listed.contains else found ++ listed)
          (x.listedWords c)) := by
  rw [findListed?] at listed
  split at listed
  · next lists =>
    refine ⟨fun c member => ?_, ?_⟩
    · have here := List.all_eq_true.mp lists c member
      rwa [Bool.and_eq_true, beq_iff_eq, Bool.not_eq_true'] at here
    · cases shape : spec.conditions with
      | nil =>
        rw [shape] at listed
        contradiction
      | cons c conditions =>
        simp only [shape, List.map_cons, Option.some.injEq] at listed
        exact ⟨c, conditions, rfl, listed.symm⟩
  · contradiction

theorem filter_limits_of_findListed? {spec : SearchSpec} {found : MatchSet}
    (listed : x.findListed? spec = some found) :
    spec.conditions.filter (·.kind == .probabilityOrderLimit) = [] := by
  obtain ⟨lists, _⟩ := findListed?_eq_some listed
  rw [List.filter_eq_nil_iff]
  intro c member limit
  rw [(lists c member).1] at limit
  contradiction

theorem filter_others_of_findListed? {spec : SearchSpec} {found : MatchSet}
    (listed : x.findListed? spec = some found) :
    spec.conditions.filter (·.kind != .probabilityOrderLimit) = spec.conditions := by
  obtain ⟨lists, _⟩ := findListed?_eq_some listed
  rw [List.filter_eq_self]
  intro c member
  rw [(lists c member).1]
  rfl

theorem Reached.contains_findListed? (reached : x.Reached) {spec : SearchSpec} {found : MatchSet}
    (listed : x.findListed? spec = some found) :
    found.contains word = true ↔ word ∈ x.candidates spec := by
  have noLimits := filter_others_of_findListed? listed
  obtain ⟨lists, c, conditions, shape, rfl⟩ := findListed?_eq_some listed
  have isList : ∀ d ∈ c :: conditions, ∀ word, (word ∈ x.listedWords d ↔
      word ∈ x.vocabulary ∧ x.meets word d = true) := by
    intro d member word
    rw [← shape] at member
    exact reached.mem_listedWords_iff_meets (lists d member).1 (lists d member).2
  obtain ⟨first, others⟩ := List.forall_mem_cons.mp isList
  have known : ∀ marked ∈ (conditions.map x.listedWords).foldl
      (fun found listed =>
        if spec.conjunction then found.filter listed.contains else found ++ listed)
      (x.listedWords c), marked ∈ x.vocabulary := by
    intro marked member
    rw [mem_foldl_lists] at member
    cases all : spec.conjunction with
    | true =>
      rw [all, if_pos rfl] at member
      exact ((first marked).mp member.1).1
    | false =>
      rw [all, if_neg Bool.false_ne_true] at member
      rcases member with member | ⟨words, isOther, member⟩
      · exact ((first marked).mp member).1
      · obtain ⟨d, isListed, rfl⟩ := List.mem_map.mp isOther
        exact ((others d isListed marked).mp member).1
  rw [reached.contains_ofSpellings known, mem_foldl_lists]
  cases all : spec.conjunction with
  | true =>
    rw [if_pos rfl, mem_candidates_of_all all, shape, first, meetsAll, List.all_cons,
      Bool.and_eq_true, List.all_eq_true, List.forall_mem_map, and_assoc]
    refine and_congr_right fun member => and_congr_right fun _ => ?_
    refine forall₂_congr fun d isListed => ?_
    rw [others d isListed, and_iff_right member]
  | false =>
    rw [if_neg Bool.false_ne_true, mem_candidates_of_any all, noLimits, shape, first,
      or_iff_right (List.cons_ne_nil c conditions), meetsAny, List.any_cons, Bool.or_eq_true,
      List.any_eq_true, and_or_left]
    refine or_congr_right ?_
    constructor
    · intro holds
      obtain ⟨words, isOther, member⟩ := holds
      obtain ⟨d, isListed, rfl⟩ := List.mem_map.mp isOther
      obtain ⟨vocabulary, meets⟩ := (others d isListed word).mp member
      exact ⟨vocabulary, d, isListed, meets⟩
    · intro holds
      obtain ⟨vocabulary, d, isListed, meets⟩ := holds
      exact ⟨x.listedWords d, List.mem_map_of_mem isListed,
        (others d isListed word).mpr ⟨vocabulary, meets⟩⟩

/-! ## Walks and judgements -/

theorem findOptimized_eq (x : Lexicon) (spec : SearchSpec) :
    x.findOptimized spec =
      ((if spec.conjunction then
          x.findAll (spec.conditions.filter (·.isMatch))
            ((spec.conditions.filter fun c => !c.isMatch).filter
              fun c => !(c.kind == .probabilityOrderLimit)) (.ofConditions spec.conditions)
        else
          x.findAny (spec.conditions.filter (·.isMatch))
            ((spec.conditions.filter fun c => !c.isMatch).filter
              fun c => !(c.kind == .probabilityOrderLimit))).limitByProbabilityOrder
        ((spec.conditions.filter fun c => !c.isMatch).filter (·.kind == .probabilityOrderLimit))
        x.bag) := by
  simp only [findOptimized, List.partition_eq_filter_filter]
  rfl

theorem isMatch_of_limit {c : Condition} (limit : (c.kind == .probabilityOrderLimit) = true) :
    c.isMatch = false := by
  rw [Condition.isMatch, eq_of_beq limit]
  rfl

theorem filter_limits_filter_not_isMatch (conditions : List Condition) :
    ((conditions.filter fun c => !c.isMatch).filter
        (·.kind == .probabilityOrderLimit)).filter (·.kind == .probabilityOrderLimit) =
      conditions.filter (·.kind == .probabilityOrderLimit) := by
  simp only [List.filter_filter]
  refine List.filter_congr fun c _ => ?_
  cases limit : (c.kind == .probabilityOrderLimit) with
  | false => rfl
  | true =>
    rw [isMatch_of_limit limit]
    rfl

theorem mem_filter_others_iff {conditions : List Condition} {c : Condition} :
    c ∈ conditions.filter (·.kind != .probabilityOrderLimit) ↔
      c ∈ conditions.filter (·.isMatch) ∨
        c ∈ (conditions.filter fun c => !c.isMatch).filter
          fun c => !(c.kind == .probabilityOrderLimit) := by
  simp only [List.mem_filter, bne, Bool.not_eq_true']
  constructor
  · intro holds
    obtain ⟨listed, notLimit⟩ := holds
    cases isMatch : c.isMatch with
    | true => exact Or.inl ⟨listed, rfl⟩
    | false => exact Or.inr ⟨⟨listed, rfl⟩, notLimit⟩
  · intro either
    rcases either with ⟨listed, isMatch⟩ | ⟨⟨listed, _⟩, notLimit⟩
    · refine ⟨listed, ?_⟩
      apply Bool.eq_false_iff.mpr
      intro limit
      rw [isMatch_of_limit limit] at isMatch
      contradiction
    · exact ⟨listed, notLimit⟩

theorem meetsAll_filter_limits (x : Lexicon) (word : String) (conditions : List Condition) :
    x.meetsAll word (conditions.filter (·.kind == .probabilityOrderLimit)) = true := by
  rw [meetsAll, List.all_eq_true]
  intro c listed
  rw [meets, eq_of_beq (List.mem_filter.mp listed).2]

theorem meetsAll_iff_matchers_and_filters (x : Lexicon) (word : String)
    (conditions : List Condition) :
    x.meetsAll word conditions = true ↔
      x.meetsAll word (conditions.filter (·.isMatch)) = true ∧
        x.meetsAll word ((conditions.filter fun c => !c.isMatch).filter
          fun c => !(c.kind == .probabilityOrderLimit)) = true := by
  rw [SearchSpec.meetsAll_filter_and x word conditions (·.isMatch),
    SearchSpec.meetsAll_filter_and x word (conditions.filter fun c => !c.isMatch)
      (·.kind == .probabilityOrderLimit),
    and_iff_right (meetsAll_filter_limits x word _)]

theorem Reached.words_findOptimized (reached : x.Reached) (spec : SearchSpec)
    (fewClasses : ∀ c ∈ spec.conditions, c.HasFewClasses) :
    ∃ found : MatchSet, (∀ word, found.contains word = true ↔ word ∈ x.candidates spec) ∧
      (x.findOptimized spec).words = (found.limitByProbabilityOrder spec.conditions x.bag).words := by
  have areMatches : ∀ c ∈ spec.conditions.filter (·.isMatch), c.isMatch = true :=
    fun c member => (List.mem_filter.mp member).2
  have fewMatches : ∀ c ∈ spec.conditions.filter (·.isMatch), c.HasFewClasses :=
    fun c member => fewClasses c (List.mem_filter.mp member).1
  rw [findOptimized_eq]
  refine ⟨_, fun word => ?_,
    MatchSet.words_limit_congr x.bag rfl (filter_limits_filter_not_isMatch spec.conditions)⟩
  cases conjunction : spec.conjunction with
  | true =>
    rw [if_pos rfl, reached.contains_findAll _ _ areMatches fewMatches,
      mem_candidates_of_all conjunction]
    refine and_congr_right fun member => ?_
    have split := meetsAll_iff_matchers_and_filters x word spec.conditions
    constructor
    · intro holds
      obtain ⟨matched, filtered, _⟩ := holds
      exact split.mpr ⟨matched, filtered⟩
    · intro meets
      obtain ⟨matched, filtered⟩ := split.mp meets
      exact ⟨matched, filtered,
        WalkLimits.admits_ofConditions (reached.storable member) meets⟩
  | false =>
    rw [if_neg Bool.false_ne_true, reached.contains_findAny _ areMatches fewMatches,
      mem_candidates_of_any conjunction]
    refine and_congr_right fun _ => ?_
    rw [← or_assoc (a := _ ∧ _)]
    simp only [meetsAny, List.any_eq_true, mem_filter_others_iff,
      List.eq_nil_iff_forall_not_mem, not_or, forall_and, or_and_right, exists_or, or_assoc]

end Lexicon

/-! ## Whole searches -/

theorem ConditionKind.isMatch_of_isWindow {kind : ConditionKind} (isWindow : kind.isWindow = true) :
    kind.isMatch = false := by
  revert isWindow
  cases kind <;> decide

namespace SearchSpec

variable {spec : SearchSpec}

theorem isWindow_of_mem_conditions {w : Windows} {c : Condition} (member : c ∈ w.conditions) :
    c.kind.isWindow = true := by
  have ofKind {window : Window} {kind : ConditionKind} {bound : Int32}
      (isWindow : kind.isWindow = true) (member : c ∈ window.condition? kind bound) :
      c.kind.isWindow = true := by
    unfold Window.condition? at member
    split at member
    · rw [List.mem_singleton.mp member]
      exact isWindow
    · exact absurd member List.not_mem_nil
  simp only [Windows.conditions, List.mem_append] at member
  rcases member with (((member | member) | member) | member) | member
  all_goals exact ofKind rfl member

theorem isWindow_or_canonical_of_mem {c : Condition} (normal : spec.optimize.2 = .normal)
    (member : c ∈ spec.optimize.1.conditions) :
    c.kind.isWindow = true ∨ ∃ written ∈ spec.conditions, c = written.canonical := by
  have spelled (member : c ∈ spec.conditions.map Condition.canonical) :
      ∃ written ∈ spec.conditions, c = written.canonical := by
    obtain ⟨written, listed, rfl⟩ := List.mem_map.mp member
    exact ⟨written, listed, rfl⟩
  rcases optimize_normal normal with ⟨_, same⟩ | ⟨_, merged, done, same⟩
  · rw [same] at member
    exact Or.inr (spelled member)
  · rw [same] at member
    obtain ⟨r, _, rfl | ⟨rfl, _⟩⟩ := mergeAll_eq_some done
    · rcases List.mem_append.mp member with window | other
      · exact Or.inl (isWindow_of_mem_conditions window)
      · exact Or.inr (spelled (List.mem_filter.mp other).1)
    · left
      rw [List.mem_singleton.mp member]
      rfl

theorem filter_limits_map_canonical (conditions : List Condition) :
    (conditions.map Condition.canonical).filter (·.kind == .probabilityOrderLimit) =
      conditions.filter (·.kind == .probabilityOrderLimit) := by
  induction conditions with
  | nil => rfl
  | cons c conditions ih =>
    rw [List.map_cons, List.filter_cons, List.filter_cons, ih, Condition.kind_canonical]
    split
    · next limit =>
      rw [Condition.canonical_of_other (by rw [eq_of_beq limit]; rfl)
        (by rw [eq_of_beq limit]; decide)]
    · rfl

theorem filter_others_map_canonical (conditions : List Condition) :
    (conditions.map Condition.canonical).filter (·.kind != .probabilityOrderLimit) =
      (conditions.filter (·.kind != .probabilityOrderLimit)).map Condition.canonical := by
  rw [List.filter_map]
  congr 1
  refine List.filter_congr fun c _ => ?_
  rw [Function.comp_apply, Condition.kind_canonical]

theorem filter_limits_conditions (w : Windows) :
    w.conditions.filter (·.kind == .probabilityOrderLimit) = [] := by
  rw [List.filter_eq_nil_iff]
  intro c member limit
  have isWindow := isWindow_of_mem_conditions member
  rw [eq_of_beq limit] at isWindow
  contradiction

theorem filter_matches_conditions (w : Windows) : w.conditions.filter (·.isMatch) = [] := by
  rw [List.filter_eq_nil_iff]
  intro c member isMatch
  rw [Condition.isMatch,
    ConditionKind.isMatch_of_isWindow (isWindow_of_mem_conditions member)] at isMatch
  contradiction

theorem filter_limits_mergeAll {conditions merged : List Condition}
    (done : mergeAll conditions = some merged) :
    merged.filter (·.kind == .probabilityOrderLimit) =
      conditions.filter (·.kind == .probabilityOrderLimit) := by
  have noWindow : ((conditions.map Condition.canonical).filter fun c => !c.kind.isWindow).filter
      (·.kind == .probabilityOrderLimit) = conditions.filter (·.kind == .probabilityOrderLimit) := by
    rw [← filter_limits_map_canonical conditions, List.filter_filter]
    refine List.filter_congr fun c _ => ?_
    cases limit : (c.kind == .probabilityOrderLimit) with
    | false => rfl
    | true => rw [eq_of_beq limit]; rfl
  obtain ⟨r, _, rfl | ⟨rfl, none⟩⟩ := mergeAll_eq_some done
  · rw [List.filter_append, filter_limits_conditions, List.nil_append, noWindow]
  · rw [← noWindow, (List.append_eq_nil_iff.mp none).2]
    rfl

theorem filter_limits_optimize (normal : spec.optimize.2 = .normal) :
    spec.optimize.1.conditions.filter (·.kind == .probabilityOrderLimit) =
      spec.conditions.filter (·.kind == .probabilityOrderLimit) := by
  rcases optimize_normal normal with ⟨_, same⟩ | ⟨_, _, done, same⟩
  · rw [same, filter_limits_map_canonical]
  · rw [same, filter_limits_mergeAll done]

theorem hasFewClasses_optimize (normal : spec.optimize.2 = .normal)
    (fewClasses : ∀ c ∈ spec.conditions, c.HasFewClasses) :
    ∀ c ∈ spec.optimize.1.conditions, c.HasFewClasses := by
  intro c member kind positive
  rcases isWindow_or_canonical_of_mem normal member with isWindow | ⟨written, listed, rfl⟩
  · rw [kind] at isWindow
    contradiction
  · rw [Condition.kind_canonical] at kind
    rw [Condition.negated_canonical] at positive
    rw [Condition.canonical_of_kind (Or.inl (by rw [kind]; rfl))]
    rw [SearchString.classCount_canonical]
    exact fewClasses written listed kind positive

end SearchSpec

namespace Lexicon

variable {x : Lexicon} {word : String}

theorem find_of_normal {spec : SearchSpec} (normal : spec.optimize.2 = .normal) :
    x.find spec = (x.findListed? spec.optimize.1).getD (x.findOptimized spec.optimize.1) := by
  rw [find, ← Prod.mk.eta (p := spec.optimize), normal]

theorem find_of_not_normal {spec : SearchSpec} (other : spec.optimize.2 ≠ .normal) :
    x.find spec = .empty := by
  rw [find, ← Prod.mk.eta (p := spec.optimize)]
  cases state : spec.optimize.2 with
  | normal => exact absurd state other
  | unconstrained => rfl
  | contradictory => rfl

theorem normal_of_mem_search {spec : SearchSpec} {word : String} (member : word ∈ x.search spec) :
    spec.optimize.2 = .normal := by
  by_contra other
  rw [search, find_of_not_normal other, MatchSet.mem_words_iff, MatchSet.contains_empty] at member
  contradiction

theorem Reached.words_find_of_normal (reached : x.Reached) {spec : SearchSpec}
    (fewClasses : ∀ c ∈ spec.conditions, c.HasFewClasses) (normal : spec.optimize.2 = .normal) :
    ∃ found : MatchSet, (∀ word, found.contains word = true ↔ word ∈ x.candidates spec.optimize.1) ∧
      (x.find spec).words =
        (found.limitByProbabilityOrder spec.optimize.1.conditions x.bag).words := by
  rw [find_of_normal normal]
  cases listed : x.findListed? spec.optimize.1 with
  | some found =>
    refine ⟨found, fun word => reached.contains_findListed? listed, ?_⟩
    rw [MatchSet.words_limit_of_no_limits _ _ (filter_limits_of_findListed? listed)]
    rfl
  | none =>
    exact reached.words_findOptimized _ (SearchSpec.hasFewClasses_optimize normal fewClasses)

theorem Reached.mem_search_of_no_limits (reached : x.Reached) {spec : SearchSpec}
    (fewClasses : ∀ c ∈ spec.conditions, c.HasFewClasses) (normal : spec.optimize.2 = .normal)
    (all : spec.optimize.1.conjunction = true)
    (noLimits : spec.conditions.filter (·.kind == .probabilityOrderLimit) = []) :
    word ∈ x.search spec ↔
      word ∈ x.vocabulary ∧ x.meetsAll word spec.optimize.1.conditions = true := by
  obtain ⟨found, exact, words⟩ := reached.words_find_of_normal fewClasses normal
  rw [search, words, MatchSet.words_limit_of_no_limits _ _
    ((SearchSpec.filter_limits_optimize normal).trans noLimits), MatchSet.mem_words_iff, exact,
    mem_candidates_of_all all]

theorem Reached.mem_candidates_optimize (reached : x.Reached) (fewAnagrams : x.HasFewAnagrams)
    {spec : SearchSpec} (listsLetters : ∀ c ∈ spec.conditions, c.ListsLetters)
    (countable : ∀ c ∈ spec.conditions, c.HasCountableSlots)
    (normal : spec.optimize.2 = .normal) :
    word ∈ x.candidates spec.optimize.1 ↔ word ∈ x.candidates spec := by
  rcases SearchSpec.optimize_normal normal with ⟨any, same⟩ | ⟨all, merged, done, same⟩
  · rw [same, mem_candidates_of_any any, mem_candidates_of_any (by exact any)]
    simp only [SearchSpec.filter_others_map_canonical, List.map_eq_nil_iff]
    rw [SearchSpec.meetsAny_map_canonical fun c member =>
      listsLetters c (List.mem_filter.mp member).1]
  · rw [same, mem_candidates_of_all all, mem_candidates_of_all (by exact all)]
    refine and_congr_right fun member => ?_
    rw [SearchSpec.meetsAll_of_mergeAll_eq_some (reached.hasBoundedCounts fewAnagrams member)
      (reached.storable member) listsLetters countable done]

theorem Reached.candidates_of_contradictory (reached : x.Reached) (fewAnagrams : x.HasFewAnagrams)
    {spec : SearchSpec} (listsLetters : ∀ c ∈ spec.conditions, c.ListsLetters)
    (countable : ∀ c ∈ spec.conditions, c.HasCountableSlots)
    (found : spec.optimize.2 = .contradictory) : x.candidates spec = [] := by
  obtain ⟨all, contradictory, _⟩ := SearchSpec.optimize_contradictory found
  rw [List.eq_nil_iff_forall_not_mem]
  intro word member
  rw [mem_candidates_of_all all] at member
  obtain ⟨known, meets⟩ := member
  rw [SearchSpec.meetsAll_of_mergeAll_eq_none (reached.hasBoundedCounts fewAnagrams known)
    (reached.storable known) listsLetters countable contradictory] at meets
  exact absurd meets Bool.false_ne_true

theorem Reached.contains_ofSpellings_candidates (reached : x.Reached) (spec : SearchSpec) :
    (MatchSet.ofSpellings (x.candidates spec)).contains word = true ↔
      word ∈ x.candidates spec := by
  refine reached.contains_ofSpellings fun marked member => ?_
  cases conjunction : spec.conjunction with
  | true => exact ((mem_candidates_of_all conjunction).mp member).1
  | false => exact ((mem_candidates_of_any conjunction).mp member).1

/-- A search finds the words that its limits by probability order keep out of the words that meet its
conditions as they are written, in ascending order. A search without conditions finds nothing. -/
theorem Reached.search_exact (reached : x.Reached) (fewAnagrams : x.HasFewAnagrams)
    (spec : SearchSpec) (listsLetters : ∀ c ∈ spec.conditions, c.ListsLetters)
    (countable : ∀ c ∈ spec.conditions, c.HasCountableSlots)
    (fewClasses : ∀ c ∈ spec.conditions, c.HasFewClasses) :
    (x.search spec).Pairwise (fun first second => compare first second = .lt) ∧
      (spec.conditions = [] → x.search spec = []) ∧
      (spec.conditions ≠ [] → x.search spec =
        ((MatchSet.ofSpellings (x.candidates spec)).limitByProbabilityOrder spec.conditions
          x.bag).words) := by
  refine ⟨MatchSet.pairwise_words _, fun empty => ?_, fun nonempty => ?_⟩
  · rw [search, find, SearchSpec.optimize_of_nil empty]
    rfl
  · cases state : spec.optimize.2 with
    | unconstrained => exact absurd (SearchSpec.optimize_unconstrained state) nonempty
    | contradictory =>
      have nothing := reached.candidates_of_contradictory fewAnagrams listsLetters countable state
      rw [search, find, ← Prod.mk.eta (p := spec.optimize), state, nothing]
      exact (MatchSet.words_limit_empty spec.conditions x.bag).symm
    | normal =>
      obtain ⟨found, exact, words⟩ := reached.words_find_of_normal fewClasses state
      rw [search, words]
      refine MatchSet.words_limit_congr x.bag (MatchSet.words_eq_of_contains fun word => ?_) ?_
      · rw [exact, reached.contains_ofSpellings_candidates,
          reached.mem_candidates_optimize fewAnagrams listsLetters countable state]
      · exact SearchSpec.filter_limits_optimize state

/-- The likeliest of the words that can be spelled from a rack and have a letter. -/
theorem search_exact_likeliest :
    let x := actAndCat
    let spec := SearchSpec.allOf [.ofText .subanagramMatch "a?[ct]", .ofText .includesLetters "t",
      .ofRange .probabilityOrderLimit 1 1]
    (x.search spec).Pairwise (fun first second => compare first second = .lt) ∧
      (spec.conditions = [] → x.search spec = []) ∧
      (spec.conditions ≠ [] → x.search spec =
        ((MatchSet.ofSpellings (x.candidates spec)).limitByProbabilityOrder spec.conditions
          x.bag).words) := by
  refine reached_actAndCat.search_exact hasFewAnagrams_actAndCat _ ?_ ?_ ?_
  · intro c member
    unfold Condition.ListsLetters
    revert c
    decide
  · intro c member kind
    obtain rfl | rfl | rfl : c = _ ∨ c = _ ∨ c = _ := by simpa [SearchSpec.allOf] using member
    · exact Condition.hasCountableSlots_of_length_lt (c := .ofText .subanagramMatch "a?[ct]")
        rfl (by decide) rfl
    · contradiction
    · contradiction
  · intro c member
    unfold Condition.HasFewClasses
    revert c
    decide

/-- From 2^31 blanks on, a search misses the words that meet it. -/
theorem not_search_exact_blanks :
    let x := actAndCat
    let spec := SearchSpec.allOf [.ofBlanks (2 ^ 31)]
    x.Reached ∧ x.HasFewAnagrams ∧ spec.conditions ≠ [] ∧
      (∀ c ∈ spec.conditions, c.ListsLetters) ∧ (∀ c ∈ spec.conditions, c.HasFewClasses) ∧
      "CAT" ∈ ((MatchSet.ofSpellings (x.candidates spec)).limitByProbabilityOrder spec.conditions
        x.bag).words ∧
      x.search spec = [] := by
  intro x spec
  have known : "CAT" ∈ x.vocabulary := cat_mem_vocabulary
  have found : spec.optimize.2 = .contradictory := SearchSpec.optimize_ofBlanks (by decide) (by decide)
  have candidate : "CAT" ∈ x.candidates spec :=
    (mem_candidates_of_all rfl).mpr
      ⟨known, meetsAll_ofBlanks (reached_actAndCat.storable known) (by decide)⟩
  have fewClasses : (Condition.ofBlanks (2 ^ 31)).HasFewClasses := by
    intro _ _
    rw [Condition.ofBlanks, Condition.ofText, SearchString.classCount_replicate_any]
    exact Nat.zero_le _
  refine ⟨reached_actAndCat, hasFewAnagrams_actAndCat, List.cons_ne_nil _ _,
    List.forall_mem_singleton.mpr (Condition.listsLetters_ofBlanks _),
    List.forall_mem_singleton.mpr fewClasses, ?_, ?_⟩
  · rw [MatchSet.words_limit_of_no_limits _ _ rfl, MatchSet.mem_words_iff]
    exact (reached_actAndCat.contains_ofSpellings_candidates spec).mpr candidate
  · rw [search, find_of_not_normal (by rw [found]; decide)]
    rfl

end Lexicon

end WordFinder
