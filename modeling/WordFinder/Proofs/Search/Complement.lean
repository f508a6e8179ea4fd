import Mathlib
import WordFinder.Proofs.Search.Exact

/-!
# A match condition and its negation

A search for one match condition is answered by a walk within the lengths that the slots of the
condition imply; a search for its negation judges every word. A word of the vocabulary is found by
one of them and not by the other, except that a search can overlook a subanagram: the walk gives up
on a rack with too many classes, and too many slots are counted as a negative number.
-/
set_option autoImplicit false

namespace WordFinder

variable {x : Lexicon} {word : String} {c : Condition}

/-! ## The lengths that a match condition implies -/

namespace Windows

theorem conditions_of_lengths (lengths : Window) :
    conditions { lengths } = lengths.condition? .length beyondLengths := by
  simp [conditions, Window.condition?, Window.isNarrowerThan, Window.upTo]

/-- Windows that only bound the length agree with each other if a word can have such a length. -/
theorem possible_of_lengths {lengths : Window} {n : Nat} (positive : 0 < n) (short : n ≤ 15)
    (has : lengths.Has n) (narrow : lengths.max.toInt ≤ 16) :
    lengthsPossible { lengths } = true ∧ areConsistent { lengths } = true := by
  have product : (10 * lengths.max).toInt = 10 * lengths.max.toInt := by
    have least := has.2
    rw [Int32.toInt_mul, show (10 : Int32).toInt = 10 from rfl]
    apply Int.bmod_eq_of_le <;> omega
  have nonempty := Window.isNonempty_of_has has
  obtain ⟨least, most⟩ := has
  constructor
  · simp only [lengthsPossible, nonempty, Bool.and_true, Bool.and_eq_true, decide_eq_true_eq,
      gt_iff_lt, Int32.le_iff_toInt_le, Int32.lt_iff_toInt_lt, toInt_zero, toInt_lengthBound]
    omega
  · simp only [areConsistent, Window.upTo, Bool.not_eq_true', Bool.or_eq_false_iff,
      decide_eq_false_iff_not, gt_iff_lt, Int32.lt_iff_toInt_lt, product, not_lt, toInt_zero,
      toInt_beyondPoints]
    omega

end Windows

namespace Condition

/-- The lengths that a search takes a match condition in canonical spelling to allow. -/
def lengths (c : Condition) : Window :=
  if c.negated || c.string.toList.contains '*' then .upTo beyondLengths
  else
    let slots := Int32.ofNat (SearchString.slotCount c.string)
    (Window.upTo beyondLengths).tighten (if c.kind = .subanagramMatch then 0 else slots) slots

theorem max_lengths_le (c : Condition) : c.lengths.max.toInt ≤ 16 := by
  rw [lengths]
  split
  · exact le_of_eq Windows.toInt_beyondLengths
  · simp only [Window.tighten, Window.upTo, toInt_min, Windows.toInt_beyondLengths]
    omega

theorem boundByMatch_default (c : Condition) :
    Requirements.boundByMatch {} c =
      if Windows.lengthsPossible { lengths := c.lengths } then
        some { windows := { lengths := c.lengths } }
      else none := by
  rw [Requirements.boundByMatch, lengths]
  split <;> rfl

end Condition

namespace SearchSpec

/-- Conditions that only bound the length of a word are merged into one window of lengths. -/
theorem mergeAll_of_lengths {conditions others : List Condition} {lengths : Window}
    (added : Requirements.addAll {} (conditions.map Condition.canonical) =
      if Windows.lengthsPossible { lengths } then some { windows := { lengths } } else none)
    (rest : (conditions.map Condition.canonical).filter (fun c => !c.kind.isWindow) = others)
    (some : others ≠ []) :
    mergeAll conditions =
      let w : Windows := { lengths }
      if w.lengthsPossible && w.areConsistent then .some (w.conditions ++ others) else none := by
  simp only [mergeAll, added, rest]
  cases possible : Windows.lengthsPossible { lengths } with
  | false => rfl
  | true =>
    simp only [if_true, Option.bind_eq_bind, Option.bind_some, Bool.true_and]
    cases Windows.areConsistent { lengths } with
    | false => rfl
    | true =>
      simp only [Bool.not_true, Bool.false_eq_true, if_false, if_true]
      split
      · next none => exact absurd (List.append_eq_nil_iff.mp none).2 some
      · rfl

theorem optimize_of_lengths {conditions others : List Condition} {lengths : Window}
    (merged : mergeAll conditions =
      let w : Windows := { lengths }
      if w.lengthsPossible && w.areConsistent then some (w.conditions ++ others) else none)
    (nonempty : conditions ≠ []) (storable : IsStorable word.toList)
    (has : lengths.Has word.length) (narrow : lengths.max.toInt ≤ 16) :
    (allOf conditions).optimize = (allOf (Windows.conditions { lengths } ++ others), .normal) := by
  obtain ⟨possible, consistent⟩ :=
    Windows.possible_of_lengths storable.nonempty storable.short has narrow
  simp only [possible, consistent, Bool.and_true, if_true] at merged
  rw [optimize_of_all nonempty rfl, allOf, merged]
  rfl

theorem mergeAll_match (isMatch : c.kind.isMatch = true) :
    mergeAll [c] =
      let w : Windows := { lengths := c.canonical.lengths }
      if w.lengthsPossible && w.areConsistent then some (w.conditions ++ [c.canonical])
      else none := by
  have added : Requirements.addAll {} [c.canonical] = Requirements.boundByMatch {} c.canonical := by
    rw [Requirements.addAll_cons, Requirements.add, Condition.kind_canonical]
    cases kind : c.kind <;> rw [kind] at isMatch <;> first | contradiction | skip
    all_goals cases Requirements.boundByMatch {} c.canonical <;> rfl
  have other : c.canonical.kind.isWindow = false := by
    rw [Condition.kind_canonical]
    revert isMatch
    cases c.kind <;> decide
  refine mergeAll_of_lengths (added.trans c.canonical.boundByMatch_default) ?_
    (List.cons_ne_nil _ _)
  rw [List.map_singleton, List.filter_singleton, other]
  rfl

theorem optimize_match (isMatch : c.kind.isMatch = true) (storable : IsStorable word.toList)
    (has : c.canonical.lengths.Has word.length) :
    (allOf [c]).optimize =
      (allOf (Windows.conditions { lengths := c.canonical.lengths } ++ [c.canonical]), .normal) :=
  optimize_of_lengths (mergeAll_match isMatch) (List.cons_ne_nil _ _) storable has
    c.canonical.max_lengths_le

/-- What is left of a search for a match condition, unless it is found contradictory. -/
theorem conditions_of_match (isMatch : c.kind.isMatch = true)
    (normal : (allOf [c]).optimize.2 = .normal) :
    (allOf [c]).optimize.1 =
      allOf (Windows.conditions { lengths := c.canonical.lengths } ++ [c.canonical]) := by
  rcases optimize_normal normal with ⟨any, _⟩ | ⟨_, merged, done, same⟩
  · contradiction
  · rw [same]
    have shape : mergeAll [c] = _ := mergeAll_match isMatch
    rw [show (allOf [c]).conditions = [c] from rfl, shape] at done
    simp only at done
    split at done
    · cases done
      rfl
    · contradiction

end SearchSpec

/-! ## Searches for one match condition -/

namespace Lexicon

theorem meetsAll_lengths (storable : IsStorable word.toList) (lengths : Window) :
    x.meetsAll word (Windows.conditions { lengths }) = true ↔ lengths.Has word.length := by
  rw [Windows.conditions_of_lengths, meetsAll]
  have short : word.length ≤ 15 := storable.short
  apply Window.all_condition?
  · rw [Windows.toInt_beyondLengths]
    omega
  · exact Condition.admits_iff

theorem meetsAll_match (isMatch : c.kind.isMatch = true) (storable : IsStorable word.toList) :
    x.meetsAll word (Windows.conditions { lengths := c.canonical.lengths } ++ [c.canonical]) = true ↔
      x.meets word c = true ∧ c.canonical.lengths.Has word.length := by
  have same : x.meets word c.canonical = x.meets word c := by
    apply Condition.meets_canonical
    intro isLetters
    rw [isLetters] at isMatch
    contradiction
  rw [meetsAll, List.all_append, Bool.and_eq_true, ← meetsAll, meetsAll_lengths storable,
    List.all_cons, List.all_nil, Bool.and_true, same, and_comm]

theorem Reached.mem_search_of_normal (reached : x.Reached) (isMatch : c.kind.isMatch = true)
    (fewClasses : c.HasFewClasses) (normal : (SearchSpec.allOf [c]).optimize.2 = .normal) :
    word ∈ x.search (.allOf [c]) ↔ word ∈ x.vocabulary ∧
      x.meetsAll word (Windows.conditions { lengths := c.canonical.lengths } ++ [c.canonical]) =
        true := by
  have few : ∀ d ∈ (SearchSpec.allOf [c]).conditions, d.HasFewClasses :=
    List.forall_mem_singleton.mpr fewClasses
  have noLimit : (c.kind == .probabilityOrderLimit) = false := by
    revert isMatch
    cases c.kind <;> decide
  have noLimits : (SearchSpec.allOf [c]).conditions.filter (·.kind == .probabilityOrderLimit) = [] :=
    List.filter_eq_nil_iff.mpr (List.forall_mem_singleton.mpr (by rw [noLimit]; decide))
  have optimized := SearchSpec.conditions_of_match isMatch normal
  rw [reached.mem_search_of_no_limits few normal (by rw [optimized]; rfl) noLimits, optimized]
  rfl

theorem Reached.mem_search_of_few_classes (reached : x.Reached) (isMatch : c.kind.isMatch = true)
    (fewClasses : c.HasFewClasses) :
    word ∈ x.search (.allOf [c]) ↔ word ∈ x.vocabulary ∧ x.meets word c = true ∧
      c.canonical.lengths.Has word.length := by
  constructor
  · intro member
    obtain ⟨known, meets⟩ :=
      (reached.mem_search_of_normal isMatch fewClasses (normal_of_mem_search member)).mp member
    exact ⟨known, (meetsAll_match isMatch (reached.storable known)).mp meets⟩
  · intro holds
    obtain ⟨known, meets, has⟩ := holds
    have normal : (SearchSpec.allOf [c]).optimize.2 = .normal := by
      rw [SearchSpec.optimize_match isMatch (reached.storable known) has]
    exact (reached.mem_search_of_normal isMatch fewClasses normal).mpr
      ⟨known, (meetsAll_match isMatch (reached.storable known)).mpr ⟨meets, has⟩⟩

theorem Reached.contains_matchesOf_of_many_classes (reached : x.Reached) (limits : WalkLimits)
    (many : ¬c.HasFewClasses) : ¬(x.matchesOf limits c).contains word = true := by
  simp only [Condition.HasFewClasses, Classical.not_imp] at many
  obtain ⟨subset, _, many⟩ := many
  intro found
  rw [matchesOf, subset] at found
  simp only [Rack.ofString?] at found
  cases read : Token.ofString? c.string with
  | none =>
    rw [read, Option.map_none] at found
    simp only [MatchSet.contains_empty] at found
    contradiction
  | some tokens =>
    rw [read, Option.map_some] at found
    simp only [reached.isSound.isMirrored.contains_rackMatches,
      SearchString.length_classes_of_ofString? read] at found
    exact many found.1

theorem matchers_match (isMatch : c.isMatch = true) (w : Windows) :
    (SearchSpec.allOf (w.conditions ++ [c.canonical])).conditions.filter (·.isMatch) =
      [c.canonical] := by
  have canonical : c.canonical.isMatch = true := by
    rwa [Condition.isMatch, Condition.kind_canonical, Condition.negated_canonical]
  rw [SearchSpec.allOf, List.filter_append, SearchSpec.filter_matches_conditions, List.nil_append,
    List.filter_singleton, canonical]
  rfl

theorem Reached.notMem_search_of_many_classes (reached : x.Reached) (many : ¬c.HasFewClasses) :
    word ∉ x.search (.allOf [c]) := by
  obtain ⟨subset, positive, manyClasses⟩ : c.kind = .subanagramMatch ∧ c.negated = false ∧
      ¬SearchString.classCount c.string ≤ Rack.maxClasses := by
    simpa only [Condition.HasFewClasses, Classical.not_imp] using many
  have isMatch : c.kind.isMatch = true := by rw [subset]; rfl
  have manyCanonical : ¬c.canonical.HasFewClasses := by
    rw [Condition.canonical_of_kind (Or.inl isMatch)]
    intro few
    have count := few subset positive
    rw [SearchString.classCount_canonical] at count
    exact manyClasses count
  intro member
  have normal := normal_of_mem_search member
  rw [search, find_of_normal normal, SearchSpec.conditions_of_match isMatch normal] at member
  cases listed : x.findListed? (.allOf
      (Windows.conditions { lengths := c.canonical.lengths } ++ [c.canonical])) with
  | some found =>
    have isList := (findListed?_eq_some listed).1 c.canonical (by simp [SearchSpec.allOf])
    rw [Condition.kind_canonical, subset] at isList
    exact absurd isList.1 (by decide)
  | none =>
    rw [listed, Option.getD_none, findOptimized_eq, MatchSet.words_limitByProbabilityOrder,
      matchers_match (by rw [Condition.isMatch, isMatch, positive]; rfl)] at member
    have found := MatchSet.mem_words_iff.mp (List.mem_filter.mp member).1
    rw [SearchSpec.allOf, if_pos rfl, findAll,
      MatchSet.contains_filterJudged (x := x) fun word => x.gives_judgeAll word _] at found
    exact reached.contains_matchesOf_of_many_classes _ manyCanonical found.1

end Lexicon

/-! ## What is overlooked -/

namespace Condition

/-- A subanagram condition spells a word and its search does not find it: the condition has more
classes than a walk can tell apart, or more slots than a signed number can count. -/
structure Overlooks (c : Condition) (x : Lexicon) (word : String) : Prop where
  subset : c.kind = .subanagramMatch
  spelled : x.meets word { c with negated := false } = true
  beyond : Rack.maxClasses < SearchString.classCount c.string ∨
    (SearchString.canonical c.string).toList.contains '*' = false ∧
      (Int32.ofNat (SearchString.slotCount (SearchString.canonical c.string))).toInt < word.length

/-- The implied lengths leave out a word that meets the condition only if its slots are miscounted. -/
theorem has_lengths_iff (isMatch : c.kind.isMatch = true) (positive : c.negated = false)
    (storable : IsStorable word.toList) (meets : x.meets word c = true) :
    c.canonical.lengths.Has word.length ↔ ¬(c.kind = .subanagramMatch ∧
      (SearchString.canonical c.string).toList.contains '*' = false ∧
        (Int32.ofNat (SearchString.slotCount (SearchString.canonical c.string))).toInt <
          word.length) := by
  have short : word.length ≤ 15 := storable.short
  have whole : (Window.upTo beyondLengths).Has word.length := by
    rw [Window.Has, Window.upTo, Windows.toInt_zero, Windows.toInt_beyondLengths]
    omega
  rw [canonical_of_kind (Or.inl isMatch), lengths]
  simp only [positive, Bool.false_or]
  cases star : (SearchString.canonical c.string).toList.contains '*' with
  | true =>
    rw [if_pos rfl]
    exact iff_of_true whole fun holds => absurd holds.2.1 (by decide)
  | false =>
    rw [if_neg Bool.false_ne_true, Window.has_tighten, and_iff_right whole]
    by_cases subset : c.kind = .subanagramMatch
    · rw [if_pos subset, Window.Has, Windows.toInt_zero]
      simp only [subset, true_and]
      omega
    · have has := has_slots_of_meets isMatch positive star (fun kind => absurd kind subset)
        storable meets
      exact iff_of_true has fun holds => subset holds.1

theorem negate_negate (c : Condition) : c.negate.negate = c := by
  rw [negate, negate, Bool.not_not]

theorem overlooks_negate_iff : c.negate.Overlooks x word ↔ c.Overlooks x word := by
  constructor <;> exact fun holds => ⟨holds.subset, holds.spelled, holds.beyond⟩

theorem meets_negate (isMatch : c.kind.isMatch = true)
    (reads : (Token.ofString? c.string).isSome = true) :
    x.meets word c.negate = !x.meets word c := by
  obtain ⟨tokens, read⟩ := Option.isSome_iff_exists.mp reads
  cases kind : c.kind <;> rw [kind] at isMatch <;> first | contradiction | skip
  all_goals
    simp only [Lexicon.meets, negate, kind, patternVerdict, rackVerdict, Pattern.ofString?,
      Rack.ofString?, read, Option.map_some, Option.any_some, verdict]
    grind

end Condition

namespace Lexicon

theorem Reached.mem_search_of_positive (reached : x.Reached) (isMatch : c.kind.isMatch = true)
    (positive : c.negated = false) :
    word ∈ x.search (.allOf [c]) ↔
      word ∈ x.vocabulary ∧ x.meets word c = true ∧ ¬c.Overlooks x word := by
  have self : { c with negated := false } = c := by rw [← positive]
  by_cases few : c.HasFewClasses
  · -- the walk is complete, so only miscounted slots can leave the word out
    rw [reached.mem_search_of_few_classes isMatch few]
    refine and_congr_right fun member => and_congr_right fun meets => ?_
    rw [Condition.has_lengths_iff isMatch positive (reached.storable member) meets, not_iff_not]
    constructor
    · intro holds
      exact ⟨holds.1, by rwa [self], Or.inr holds.2⟩
    · intro overlooked
      rcases overlooked.beyond with many | miscounted
      · exact absurd (few overlooked.subset positive) (not_le_of_gt many)
      · exact ⟨overlooked.subset, miscounted⟩
  · refine iff_of_false (reached.notMem_search_of_many_classes few) fun holds => holds.2.2 ?_
    simp only [Condition.HasFewClasses, Classical.not_imp, not_le] at few
    exact ⟨few.1, by rw [self]; exact holds.2.1, Or.inl few.2.2⟩

theorem Reached.mem_search_of_negated (reached : x.Reached) (isMatch : c.kind.isMatch = true)
    (negated : c.negated = true) :
    word ∈ x.search (.allOf [c]) ↔ word ∈ x.vocabulary ∧ x.meets word c = true := by
  have few : c.HasFewClasses := fun _ positive => by
    rw [negated] at positive
    contradiction
  rw [reached.mem_search_of_few_classes isMatch few]
  refine and_congr_right fun member => and_iff_left ?_
  have short : word.length ≤ 15 := (reached.storable member).short
  rw [Condition.lengths, Condition.negated_canonical, negated, Bool.true_or, if_pos rfl, Window.Has,
    Window.upTo, Windows.toInt_zero, Windows.toInt_beyondLengths]
  omega

theorem Reached.split_of_positive (reached : x.Reached) (isMatch : c.kind.isMatch = true)
    (reads : (Token.ofString? c.string).isSome = true) (positive : c.negated = false)
    (member : word ∈ x.vocabulary) :
    ¬(word ∈ x.search (.allOf [c]) ∧ word ∈ x.search (.allOf [c.negate])) ∧
      ((word ∈ x.search (.allOf [c]) ∨ word ∈ x.search (.allOf [c.negate])) ↔
        ¬c.Overlooks x word) := by
  have negated : c.negate.negated = true := by rw [Condition.negate, positive, Bool.not_false]
  rw [reached.mem_search_of_positive isMatch positive,
    reached.mem_search_of_negated (c := c.negate) isMatch negated,
    Condition.meets_negate isMatch reads, Bool.not_eq_true']
  cases meets : x.meets word c with
  | true => simp [member]
  | false =>
    have nothing : ¬c.Overlooks x word := by
      intro overlooked
      have spelled := overlooked.spelled
      rw [show { c with negated := false } = c by rw [← positive], meets] at spelled
      contradiction
    simp [member, nothing]

/-- A match condition and its negation never find the same word, and together they find every word of
the vocabulary that the condition does not overlook. -/
theorem Reached.split_by_match (reached : x.Reached) (isMatch : c.kind.isMatch = true)
    (reads : (Token.ofString? c.string).isSome = true) (member : word ∈ x.vocabulary) :
    ¬(word ∈ x.search (.allOf [c]) ∧ word ∈ x.search (.allOf [c.negate])) ∧
      ((word ∈ x.search (.allOf [c]) ∨ word ∈ x.search (.allOf [c.negate])) ↔
        ¬c.Overlooks x word) := by
  cases sign : c.negated with
  | false => exact reached.split_of_positive isMatch reads sign member
  | true =>
    have positive : c.negate.negated = false := by rw [Condition.negate, sign, Bool.not_true]
    obtain ⟨apart, together⟩ := reached.split_of_positive (c := c.negate) isMatch reads positive member
    rw [Condition.negate_negate] at apart together
    rw [Condition.overlooks_negate_iff, or_comm] at together
    rw [and_comm] at apart
    exact ⟨apart, together⟩

/-- A subanagram of a class, a blank and a letter. -/
theorem split_by_match_short :
    let c := Condition.ofText .subanagramMatch "[at]?c"
    (Token.ofString? c.string).isSome = true ∧ "CAT" ∈ actAndCat.vocabulary ∧
      ¬("CAT" ∈ actAndCat.search (.allOf [c]) ∧ "CAT" ∈ actAndCat.search (.allOf [c.negate])) ∧
      (("CAT" ∈ actAndCat.search (.allOf [c]) ∨ "CAT" ∈ actAndCat.search (.allOf [c.negate])) ↔
        ¬c.Overlooks actAndCat "CAT") := by
  have reads : (Token.ofString? "[at]?c").isSome = true := by decide
  have member := cat_mem_vocabulary
  exact ⟨reads, member, reached_actAndCat.split_by_match rfl reads member⟩

/-- A subanagram of more classes than a walk can tell apart. -/
def tooManyClasses : Condition :=
  .ofText .subanagramMatch (.ofList (List.replicate 33 ['[', 'A', 'C', 'T', ']']).flatten)

theorem ofString?_tooManyClasses :
    Token.ofString? tooManyClasses.string =
      some (List.replicate 33 (.oneOf ⟨['A', 'C', 'T']⟩)) := by
  rw [tooManyClasses, Condition.ofText, Token.ofString?, String.toList_ofList]
  decide +kernel

/-- A word that can be spelled from too many classes is found neither with nor without negation. -/
theorem not_split_by_many_classes :
    (Token.ofString? tooManyClasses.string).isSome = true ∧ "CAT" ∈ actAndCat.vocabulary ∧
      "CAT" ∉ actAndCat.search (.allOf [tooManyClasses]) ∧
        "CAT" ∉ actAndCat.search (.allOf [tooManyClasses.negate]) := by
  have read := ofString?_tooManyClasses
  have reads : (Token.ofString? tooManyClasses.string).isSome = true := by rw [read]; rfl
  have many : Rack.maxClasses < SearchString.classCount tooManyClasses.string := by
    rw [← SearchString.length_classes_of_ofString? read]
    decide +kernel
  have spelled : actAndCat.meets "CAT" tooManyClasses = true := by
    change tooManyClasses.rackVerdict (Rack.ofString? tooManyClasses.string) "CAT" = true
    rw [Rack.ofString?, read]
    decide +kernel
  refine ⟨reads, cat_mem_vocabulary, fun found => ?_, fun found => ?_⟩
  · rw [reached_actAndCat.mem_search_of_positive rfl rfl] at found
    exact found.2.2 ⟨rfl, spelled, Or.inl many⟩
  · rw [reached_actAndCat.mem_search_of_negated (c := tooManyClasses.negate) rfl rfl,
      Condition.meets_negate rfl reads, spelled] at found
    exact Bool.false_ne_true found.2

end Lexicon

end WordFinder
