import Mathlib
import WordFinder.Proofs.Search.Judge
import WordFinder.Proofs.Search.Overflow

/-!
# Optimized searches mean the same

A word of a vocabulary meets an optimized search exactly if it meets the search as it is written, and
no word meets a search whose conditions are found to contradict each other. This takes subanagrams with
slots that can be counted; where they cannot, a word meets a search and not its normal form.
-/
set_option autoImplicit false

namespace WordFinder

namespace SearchSpec

variable {x : Lexicon} {word : String}

theorem meetsAll_map_canonical {conditions : List Condition}
    (listsLetters : ∀ c ∈ conditions, c.ListsLetters) :
    x.meetsAll word (conditions.map Condition.canonical) = x.meetsAll word conditions := by
  rw [Lexicon.meetsAll, Lexicon.meetsAll, List.all_map, Bool.eq_iff_iff, List.all_eq_true,
    List.all_eq_true]
  refine forall₂_congr fun c member => ?_
  rw [Function.comp_apply, Condition.meets_canonical (listsLetters c member)]

theorem meetsAny_map_canonical {conditions : List Condition}
    (listsLetters : ∀ c ∈ conditions, c.ListsLetters) :
    x.meetsAny word (conditions.map Condition.canonical) = x.meetsAny word conditions := by
  rw [Lexicon.meetsAny, Lexicon.meetsAny, List.any_map, Bool.eq_iff_iff, List.any_eq_true,
    List.any_eq_true]
  refine exists_congr fun c => and_congr_right fun member => ?_
  rw [Function.comp_apply, Condition.meets_canonical (listsLetters c member)]

theorem meetsAll_filter_and (x : Lexicon) (word : String) (conditions : List Condition)
    (isFirst : Condition → Bool) :
    x.meetsAll word conditions = true ↔
      x.meetsAll word (conditions.filter isFirst) = true ∧
        x.meetsAll word (conditions.filter fun c => !isFirst c) = true := by
  simp only [Lexicon.meetsAll, List.all_eq_true, List.mem_filter, Bool.not_eq_true']
  constructor
  · intro meets
    exact ⟨fun c member => meets c member.1, fun c member => meets c member.1⟩
  · rintro ⟨first, others⟩ c member
    cases split : isFirst c with
    | true => exact first c ⟨member, split⟩
    | false => exact others c ⟨member, split⟩

theorem mergeAll_eq_some {conditions merged : List Condition}
    (done : mergeAll conditions = some merged) :
    ∃ r, Requirements.addAll {} (conditions.map Condition.canonical) = some r ∧
      (merged = r.windows.conditions ++
          (conditions.map Condition.canonical).filter (fun c => !c.kind.isWindow) ∨
        (merged = [.ofRange .length r.windows.lengths.min r.windows.lengths.max] ∧
          r.windows.conditions ++
            (conditions.map Condition.canonical).filter (fun c => !c.kind.isWindow) = [])) := by
  unfold mergeAll at done
  simp only [Option.bind_eq_bind, Option.bind_eq_some_iff] at done
  obtain ⟨r, added, done⟩ := done
  refine ⟨r, added, ?_⟩
  split at done
  · contradiction
  · split at done
    · next none =>
      cases done
      exact Or.inr ⟨rfl, none⟩
    · cases done
      exact Or.inl rfl

variable {conditions : List Condition}

theorem meetsAll_of_mergeAll_eq_some (bounded : HasBoundedCounts x word)
    (storable : IsStorable word.toList) (listsLetters : ∀ c ∈ conditions, c.ListsLetters)
    (countable : ∀ c ∈ conditions, c.HasCountableSlots) {merged : List Condition}
    (done : mergeAll conditions = some merged) :
    x.meetsAll word merged = x.meetsAll word conditions := by
  obtain ⟨r, added, shape⟩ := mergeAll_eq_some done
  obtain ⟨_, meetsWindows⟩ := Requirements.areTighter_addAll added
  have whole : r.windows.Hold x word ∧ x.meetsAll word
        ((conditions.map Condition.canonical).filter fun c => !c.kind.isWindow) = true ↔
      x.meetsAll word conditions = true := by
    have parts := meetsAll_filter_and x word (conditions.map Condition.canonical) (·.kind.isWindow)
    rw [meetsAll_map_canonical listsLetters] at parts
    rw [parts]
    constructor
    · intro holds
      obtain ⟨hold, others⟩ := holds
      exact ⟨meetsWindows hold, others⟩
    · intro both
      obtain ⟨after, merged, met⟩ := Requirements.addAll_of_met bounded storable listsLetters
        countable (Requirements.met_default bounded) (parts.mpr both)
      rw [added] at merged
      cases merged
      exact ⟨met.windows, both.2⟩
  rw [Bool.eq_iff_iff, ← whole]
  rcases shape with rfl | ⟨rfl, none⟩
  · rw [Lexicon.meetsAll, List.all_append, Bool.and_eq_true, ← Lexicon.meetsAll,
      ← Lexicon.meetsAll, Windows.meetsAll_conditions_iff bounded]
  · -- windows that bound nothing hold for every word, and so does the length that stands for them
    obtain ⟨noWindows, noOthers⟩ := List.append_eq_nil_iff.mp none
    have hold : r.windows.Hold x word := by
      rw [← Windows.meetsAll_conditions_iff bounded, noWindows]
      rfl
    have length : x.meetsAll word
        [.ofRange .length r.windows.lengths.min r.windows.lengths.max] = true := by
      rw [Lexicon.meetsAll, List.all_cons, List.all_nil, Bool.and_true]
      exact Condition.admits_iff.mpr hold.lengths
    rw [noOthers]
    exact iff_of_true length ⟨hold, rfl⟩

theorem meetsAll_of_mergeAll_eq_none (bounded : HasBoundedCounts x word)
    (storable : IsStorable word.toList) (listsLetters : ∀ c ∈ conditions, c.ListsLetters)
    (countable : ∀ c ∈ conditions, c.HasCountableSlots) (contradictory : mergeAll conditions = none) :
    x.meetsAll word conditions = false := by
  rw [Bool.eq_false_iff]
  intro meets
  obtain ⟨r, added, met⟩ := Requirements.addAll_of_met bounded storable listsLetters countable
    (Requirements.met_default bounded) meets
  have narrow : r.windows.lengths.max.toInt ≤ 16 :=
    le_trans (Requirements.areTighter_addAll added).1.shorter
      (le_of_eq Windows.toInt_beyondLengths)
  have consistent := Windows.areConsistent_of_hold bounded met.windows narrow
  unfold mergeAll at contradictory
  simp only [added, Option.bind_eq_bind, Option.bind_some, consistent, Bool.not_true,
    Bool.false_eq_true, if_false] at contradictory
  split at contradictory <;> contradiction

/-! ## Whole searches -/

theorem optimize_of_any {spec : SearchSpec} (nonempty : spec.conditions ≠ [])
    (any : spec.conjunction = false) :
    spec.optimize =
      ({ spec with conditions := spec.conditions.map Condition.canonical }, .normal) := by
  rw [optimize, if_neg (by rwa [List.isEmpty_iff]), any, Bool.not_false, if_pos rfl]

theorem optimize_of_all {spec : SearchSpec} (nonempty : spec.conditions ≠ [])
    (all : spec.conjunction = true) :
    spec.optimize =
      match mergeAll spec.conditions with
      | some conditions => ({ spec with conditions }, .normal)
      | none => ({ spec with conditions := [] }, .contradictory) := by
  cases merged : mergeAll spec.conditions with
  | some conditions => simp [optimize, nonempty, all, merged]
  | none => simp [optimize, nonempty, all, merged]

theorem optimize_of_nil {spec : SearchSpec} (empty : spec.conditions = []) :
    spec.optimize = (spec, .unconstrained) := by
  rw [optimize, empty]
  rfl

/-- A search without conditions is the only one about which nothing is known. -/
theorem optimize_unconstrained {spec : SearchSpec} (found : spec.optimize.2 = .unconstrained) :
    spec.conditions = [] := by
  by_contra nonempty
  cases conjunction : spec.conjunction with
  | false =>
    rw [optimize_of_any nonempty conjunction] at found
    contradiction
  | true =>
    rw [optimize_of_all nonempty conjunction] at found
    split at found <;> contradiction

theorem optimize_contradictory {spec : SearchSpec} (found : spec.optimize.2 = .contradictory) :
    spec.conjunction = true ∧ mergeAll spec.conditions = none ∧
      spec.optimize.1 = { spec with conditions := [] } := by
  by_cases empty : spec.conditions = []
  · rw [optimize_of_nil empty] at found
    contradiction
  · cases conjunction : spec.conjunction with
    | false =>
      rw [optimize_of_any empty conjunction] at found
      contradiction
    | true =>
      rw [optimize_of_all empty conjunction] at found ⊢
      cases done : mergeAll spec.conditions with
      | some merged =>
        rw [done] at found
        contradiction
      | none => exact ⟨rfl, rfl, by simp [conjunction]⟩

theorem optimize_normal {spec : SearchSpec} (found : spec.optimize.2 = .normal) :
    (spec.conjunction = false ∧ spec.optimize.1 =
        { spec with conditions := spec.conditions.map Condition.canonical }) ∨
      (spec.conjunction = true ∧ ∃ merged, mergeAll spec.conditions = some merged ∧
        spec.optimize.1 = { spec with conditions := merged }) := by
  by_cases empty : spec.conditions = []
  · rw [optimize_of_nil empty] at found
    contradiction
  · cases conjunction : spec.conjunction with
    | false =>
      rw [optimize_of_any empty conjunction]
      exact Or.inl ⟨rfl, by simp [conjunction]⟩
    | true =>
      rw [optimize_of_all empty conjunction] at found ⊢
      cases done : mergeAll spec.conditions with
      | some merged => exact Or.inr ⟨rfl, merged, rfl, by simp [conjunction]⟩
      | none =>
        rw [done] at found
        contradiction

theorem mergeAll_ne_nil {merged : List Condition} (done : mergeAll conditions = some merged) :
    merged ≠ [] := by
  intro none
  obtain ⟨r, added, rfl | ⟨shape, _⟩⟩ := mergeAll_eq_some done
  · unfold mergeAll at done
    simp only [added, Option.bind_eq_bind, Option.bind_some, none] at done
    split at done <;> cases done
  · rw [none] at shape
    contradiction

theorem meetsSpec_optimize (bounded : HasBoundedCounts x word) (storable : IsStorable word.toList)
    (spec : SearchSpec) (listsLetters : ∀ c ∈ spec.conditions, c.ListsLetters)
    (countable : ∀ c ∈ spec.conditions, c.HasCountableSlots) :
    x.meetsSpec word spec.optimize.1 = x.meetsSpec word spec := by
  cases state : spec.optimize.2 with
  | unconstrained => rw [optimize_of_nil (optimize_unconstrained state)]
  | contradictory =>
    obtain ⟨all, contradictory, same⟩ := optimize_contradictory state
    rw [same]
    simp only [Lexicon.meetsSpec, all, if_true, List.isEmpty_nil, Bool.not_true, Bool.false_and,
      meetsAll_of_mergeAll_eq_none bounded storable listsLetters countable contradictory,
      Bool.and_false]
  | normal =>
    have nonempty : spec.conditions ≠ [] := by
      intro empty
      rw [optimize_of_nil empty] at state
      contradiction
    rcases optimize_normal state with ⟨any, same⟩ | ⟨all, merged, done, same⟩
    · rw [same]
      simp only [Lexicon.meetsSpec, List.isEmpty_map, any, Bool.false_eq_true, if_false,
        meetsAny_map_canonical listsLetters]
    · rw [same]
      simp only [Lexicon.meetsSpec, all, if_true, List.isEmpty_eq_false_iff.mpr nonempty,
        List.isEmpty_eq_false_iff.mpr (mergeAll_ne_nil done),
        meetsAll_of_mergeAll_eq_some bounded storable listsLetters countable done]

/-- A judge gives the same verdict on a search as it is written and on its normal form, whatever it
remembers, for every word of a vocabulary that imports built. If the conditions are found to
contradict each other, none is left and no word meets them. -/
theorem judgeSpec_optimize (reached : x.Reached) (fewAnagrams : x.HasFewAnagrams)
    (member : word ∈ x.vocabulary) (spec : SearchSpec)
    (listsLetters : ∀ c ∈ spec.conditions, c.ListsLetters)
    (countable : ∀ c ∈ spec.conditions, c.HasCountableSlots) {memory later : Memory}
    (known : memory.Reached x) (knownLater : later.Reached x) :
    ((x.judgeSpec word spec).run memory).1 = ((x.judgeSpec word spec.optimize.1).run later).1 ∧
      (spec.optimize.2 = .contradictory → spec.optimize.1.conditions = [] ∧
        ((x.judgeSpec word spec).run memory).1 = false) := by
  have storable := reached.storable member
  have bounded := reached.hasBoundedCounts fewAnagrams member
  have written := (x.gives_judgeSpec word spec memory known.isSound).1
  have optimized := (x.gives_judgeSpec word spec.optimize.1 later knownLater.isSound).1
  have same := meetsSpec_optimize bounded storable spec listsLetters countable
  refine ⟨by rw [written, optimized, same], fun found => ?_⟩
  have cleared : spec.optimize.1.conditions = [] := by
    rw [(optimize_contradictory found).2.2]
  refine ⟨cleared, ?_⟩
  rw [written, ← same, Lexicon.meetsSpec, cleared]
  rfl

/-- Merging the lengths of a subanagram and of a range keeps the verdict on a word. -/
theorem judgeSpec_optimize_cat :
    let x := Lexicon.actAndCat
    let spec := allOf [.ofText .subanagramMatch "a?[ct]", .ofText .includesLetters "ta",
      .ofRange .length 2 5]
    ((x.judgeSpec "CAT" spec).run {}).1 = ((x.judgeSpec "CAT" spec.optimize.1).run {}).1 ∧
      (spec.optimize.2 = .contradictory → spec.optimize.1.conditions = [] ∧
        ((x.judgeSpec "CAT" spec).run {}).1 = false) := by
  refine judgeSpec_optimize Lexicon.reached_actAndCat Lexicon.hasFewAnagrams_actAndCat
    Lexicon.cat_mem_vocabulary _ ?_ ?_ .fresh .fresh
  · intro c member
    unfold Condition.ListsLetters
    revert c
    decide
  · intro c member kind
    obtain rfl | rfl | rfl : c = _ ∨ c = _ ∨ c = _ := by simpa [allOf] using member
    · exact Condition.hasCountableSlots_of_length_lt (c := .ofText .subanagramMatch "a?[ct]")
        rfl (by decide) rfl
    · contradiction
    · contradiction

/-- From 2^31 blanks on, a word meets a search that is found to contradict itself. -/
theorem not_judgeSpec_optimize_blanks :
    let x := Lexicon.actAndCat
    let spec := allOf [.ofBlanks (2 ^ 31)]
    x.Reached ∧ x.HasFewAnagrams ∧ "CAT" ∈ x.vocabulary ∧ spec.conditions ≠ [] ∧
      (∀ c ∈ spec.conditions, c.ListsLetters) ∧
      ((x.judgeSpec "CAT" spec).run {}).1 = true ∧
      ((x.judgeSpec "CAT" spec.optimize.1).run {}).1 = false ∧
      spec.optimize.2 = .contradictory := by
  intro x spec
  have known : "CAT" ∈ x.vocabulary := Lexicon.cat_mem_vocabulary
  have written : x.meetsSpec "CAT" spec = true :=
    Lexicon.meetsSpec_ofBlanks (Lexicon.reached_actAndCat.storable known) (by decide)
  have found : spec.optimize.2 = .contradictory := optimize_ofBlanks (by decide) (by decide)
  have optimized : x.meetsSpec "CAT" spec.optimize.1 = false := by
    rw [(optimize_contradictory found).2.2]
    rfl
  refine ⟨Lexicon.reached_actAndCat, Lexicon.hasFewAnagrams_actAndCat, known, List.cons_ne_nil _ _,
    List.forall_mem_singleton.mpr (Condition.listsLetters_ofBlanks _), ?_, ?_, found⟩
  · rw [(x.gives_judgeSpec "CAT" spec {} (Memory.isSound_fresh x)).1, written]
  · rw [(x.gives_judgeSpec "CAT" spec.optimize.1 {} (Memory.isSound_fresh x)).1, optimized]

end SearchSpec

end WordFinder
