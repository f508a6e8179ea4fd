import Mathlib
import WordFinder.Proofs.Search.Exact

/-!
# Optimized searches are in normal form

The windows of an optimized search are conditions of it, and merging these conditions gives the same
windows again: the other conditions ask for nothing that the windows do not say already. So a search
that was optimized stays as it is.
-/
set_option autoImplicit false

namespace WordFinder

/-! ## Windows within windows -/

namespace Window

variable {w inner outer : Window} {bound least most : Int32}

/-- Whether a window reaches no further than another on either side. -/
structure IsWithin (inner outer : Window) : Prop where
  least : outer.min.toInt ≤ inner.min.toInt
  most : inner.max.toInt ≤ outer.max.toInt

theorem IsWithin.refl (w : Window) : w.IsWithin w := ⟨le_refl _, le_refl _⟩

theorem IsWithin.trans (first : inner.IsWithin w) (second : w.IsWithin outer) :
    inner.IsWithin outer :=
  ⟨le_trans second.least first.least, le_trans first.most second.most⟩

theorem eq_of_toInt (min : inner.min.toInt = outer.min.toInt)
    (max : inner.max.toInt = outer.max.toInt) : inner = outer := by
  obtain ⟨innerMin, innerMax⟩ := inner
  obtain ⟨outerMin, outerMax⟩ := outer
  rw [Window.mk.injEq, ← Int32.toInt_inj, ← Int32.toInt_inj]
  exact ⟨min, max⟩

theorem isWithin_tighten (w : Window) (least most : Int32) : (w.tighten least most).IsWithin w := by
  constructor <;> simp only [tighten, toInt_max, toInt_min] <;> omega

theorem tighten_of_isWithin (within : inner.IsWithin (outer.tighten least most)) :
    inner.tighten least most = inner := by
  obtain ⟨low, high⟩ := within
  simp only [tighten, toInt_max, toInt_min] at low high
  apply eq_of_toInt <;> simp only [tighten, toInt_max, toInt_min] <;> omega

theorem tighten_eq_of_isWithin (within : inner.IsWithin outer) :
    outer.tighten inner.min inner.max = inner := by
  obtain ⟨low, high⟩ := within
  apply eq_of_toInt <;> simp only [tighten, toInt_max, toInt_min] <;> omega

theorem eq_upTo_of_not_isNarrowerThan (within : w.IsWithin (.upTo bound))
    (wide : ¬w.isNarrowerThan bound = true) : w = .upTo bound := by
  obtain ⟨low, high⟩ := within
  simp only [isNarrowerThan, Bool.or_eq_true, decide_eq_true_eq, gt_iff_lt,
    Int32.lt_iff_toInt_lt, Windows.toInt_zero, not_or, not_lt] at wide
  simp only [upTo, Windows.toInt_zero] at low high
  apply eq_of_toInt <;> simp only [upTo, Windows.toInt_zero] <;> omega

end Window

namespace Windows

variable {w inner outer : Windows}

structure IsWithin (inner outer : Windows) : Prop where
  lengths : inner.lengths.IsWithin outer.lengths
  vowels : inner.vowels.IsWithin outer.vowels
  uniqueLetters : inner.uniqueLetters.IsWithin outer.uniqueLetters
  points : inner.points.IsWithin outer.points
  anagrams : inner.anagrams.IsWithin outer.anagrams

theorem IsWithin.refl (w : Windows) : w.IsWithin w := ⟨.refl _, .refl _, .refl _, .refl _, .refl _⟩

theorem IsWithin.trans (first : inner.IsWithin w) (second : w.IsWithin outer) :
    inner.IsWithin outer :=
  ⟨first.lengths.trans second.lengths, first.vowels.trans second.vowels,
    first.uniqueLetters.trans second.uniqueLetters, first.points.trans second.points,
    first.anagrams.trans second.anagrams⟩

theorem arePossible_default : ArePossible {} := by
  constructor <;> decide

theorem eq_default_of_conditions (within : w.IsWithin {}) (none : w.conditions = []) : w = {} := by
  have wide {window : Window} {kind : ConditionKind} {bound : Int32}
      (within : window.IsWithin (.upTo bound)) (none : window.condition? kind bound = []) :
      window = .upTo bound := by
    apply Window.eq_upTo_of_not_isNarrowerThan within
    intro narrow
    rw [Window.condition?, if_pos narrow] at none
    contradiction
  simp only [conditions, List.append_eq_nil_iff] at none
  obtain ⟨⟨⟨⟨lengths, vowels⟩, uniqueLetters⟩, points⟩, anagrams⟩ := none
  obtain ⟨wLengths, wVowels, wUniqueLetters, wPoints, wAnagrams⟩ := w
  rw [Windows.mk.injEq]
  exact ⟨wide within.lengths lengths, wide within.vowels vowels,
    wide within.uniqueLetters uniqueLetters, wide within.points points,
    wide within.anagrams anagrams⟩

end Windows

/-! ## Merging a condition a second time -/

namespace Requirements

variable {r after : Requirements} {c : Condition}

/-- A way to extend requirements that no window gets wider by, and that changes no window once the
windows are as tight as they become. -/
structure Settles (extend : Requirements → Option Requirements) (r after : Requirements) : Prop where
  within : after.windows.IsWithin r.windows
  possible : r.windows.ArePossible → after.windows.ArePossible
  again : ∀ w : Windows, w.IsWithin after.windows → w.ArePossible →
    extend { r with windows := w } = some { after with windows := w }

theorem settles_tighten (tighten : Windows → Windows) {possible : Windows → Bool}
    (within : (tighten r.windows).IsWithin r.windows)
    (kept : r.windows.ArePossible → possible (tighten r.windows) = true →
      (tighten r.windows).ArePossible)
    (fixed : ∀ w : Windows, w.IsWithin (tighten r.windows) → tighten w = w)
    (needed : ∀ w : Windows, w.ArePossible → possible w = true)
    (added : (if possible (tighten r.windows) then some { r with windows := tighten r.windows }
      else none) = some after) :
    Settles (fun r => if possible (tighten r.windows) then
      some { r with windows := tighten r.windows } else none) r after := by
  split at added
  · next found =>
    cases added
    refine ⟨within, fun before => kept before found, fun w inside areas => ?_⟩
    rw [fixed w inside, if_pos (needed w areas)]
  · contradiction

theorem settles_boundLength {least most : Int32} (added : r.boundLength least most = some after) :
    Settles (·.boundLength least most) r after := by
  refine settles_tighten (fun w => { w with lengths := w.lengths.tighten least most })
    ?_ ?_ ?_ ?_ added
  · exact { Windows.IsWithin.refl r.windows with lengths := Window.isWithin_tighten _ _ _ }
  · exact fun before found => { before with lengths := found }
  · intro w inside
    simp only [Window.tighten_of_isWithin inside.lengths]
  · exact fun w areas => areas.lengths

theorem settles_of_windows {extend : Requirements → Option Requirements}
    (apart : ∀ w : Windows, extend { r with windows := w } =
      (extend r).map fun after => { after with windows := w })
    (same : after.windows = r.windows) (added : extend r = some after) : Settles extend r after := by
  refine ⟨?_, ?_, fun w _ _ => ?_⟩
  · rw [same]
    exact .refl _
  · rw [same]
    exact id
  · rw [apart, added, Option.map_some]

theorem settles_self (r : Requirements) : Settles some r r :=
  settles_of_windows (fun _ => rfl) rfl rfl

theorem settles_boundByMatch (added : r.boundByMatch c = some after) :
    Settles (·.boundByMatch c) r after := by
  simp only [boundByMatch] at added ⊢
  split at added
  · next free =>
    cases added
    simp only [if_pos free]
    exact settles_self r
  · next bounds =>
    simp only [if_neg bounds]
    exact settles_boundLength added

theorem settles_boundByGroup (added : r.boundByGroup c = some after) :
    Settles (·.boundByGroup c) r after := by
  simp only [boundByGroup] at added ⊢
  split at added
  · exact settles_boundLength added
  · cases added
    exact settles_self r

theorem settles_addLetters (added : r.addLetters c = some after) :
    Settles (·.addLetters c) r after := by
  refine settles_of_windows (fun w => ?_) ?_ added
  · simp only [addLetters]
    split_ifs <;> rfl
  · simp only [addLetters] at added
    split_ifs at added <;> (cases added; rfl)

/-- Merging a condition settles the windows, and a condition that a window expresses in full asks for
nothing else. -/
theorem settles_add (added : r.add c = some after) :
    Settles (·.add c) r after ∧
      (c.kind.isWindow = true → after = { r with windows := after.windows }) := by
  have windowsOnly {windows : Windows} {possible : Bool}
      (added : (if possible then some { r with windows } else none) = some after) :
      after = { r with windows := after.windows } := by
    split at added
    · cases added
      rfl
    · contradiction
  cases kind : c.kind
  all_goals simp only [add, kind] at added ⊢
  case length => exact ⟨settles_boundLength added, fun _ => windowsOnly added⟩
  case patternMatch | anagramMatch | subanagramMatch =>
    exact ⟨settles_boundByMatch added, fun isWindow => absurd isWindow Bool.false_ne_true⟩
  case belongsToGroup =>
    exact ⟨settles_boundByGroup added, fun isWindow => absurd isWindow Bool.false_ne_true⟩
  case includesLetters =>
    exact ⟨settles_addLetters added, fun isWindow => absurd isWindow Bool.false_ne_true⟩
  case inLexicon | partOfSpeech =>
    refine ⟨settles_of_windows (fun w => ?_) ?_ added, fun isWindow =>
      absurd isWindow Bool.false_ne_true⟩
    · rw [Option.map_map]
      rfl
    · obtain ⟨_, _, rfl⟩ := Option.map_eq_some_iff.mp added
      rfl
  case anagramCount =>
    refine ⟨settles_tighten
      (fun w => { w with anagrams := w.anagrams.tighten c.min c.max })
      { Windows.IsWithin.refl r.windows with anagrams := Window.isWithin_tighten _ _ _ }
      (fun before found => { before with anagrams := found }) (fun w inside => ?_)
      (fun w areas => areas.anagrams) added, fun _ => windowsOnly added⟩
    simp only [Window.tighten_of_isWithin inside.anagrams]
  case vowelCount =>
    refine ⟨settles_tighten
      (fun w => { w with vowels := w.vowels.tighten c.min c.max })
      { Windows.IsWithin.refl r.windows with vowels := Window.isWithin_tighten _ _ _ }
      (fun before found => { before with vowels := found }) (fun w inside => ?_)
      (fun w areas => areas.vowels) added, fun _ => windowsOnly added⟩
    simp only [Window.tighten_of_isWithin inside.vowels]
  case uniqueLetterCount =>
    refine ⟨settles_tighten
      (fun w => { w with uniqueLetters := w.uniqueLetters.tighten c.min c.max })
      { Windows.IsWithin.refl r.windows with uniqueLetters := Window.isWithin_tighten _ _ _ }
      (fun before found => { before with uniqueLetters := found }) (fun w inside => ?_)
      (fun w areas => areas.uniqueLetters) added, fun _ => windowsOnly added⟩
    simp only [Window.tighten_of_isWithin inside.uniqueLetters]
  case pointValue =>
    refine ⟨settles_tighten
      (fun w => { w with points := w.points.tighten c.min c.max })
      { Windows.IsWithin.refl r.windows with points := Window.isWithin_tighten _ _ _ }
      (fun before found => { before with points := found }) (fun w inside => ?_)
      (fun w areas => areas.points) added, fun _ => windowsOnly added⟩
    simp only [Window.tighten_of_isWithin inside.points]
  all_goals
    cases added
    exact ⟨settles_self r, fun isWindow => absurd isWindow Bool.false_ne_true⟩

/-- Once the windows are final, merging conditions again needs only those that no window expresses. -/
theorem settles_addAll {conditions : List Condition} (merged : r.addAll conditions = some after) :
    Settles (·.addAll (conditions.filter fun c => !c.kind.isWindow)) r after := by
  induction conditions generalizing r with
  | nil =>
    cases merged
    exact settles_self _
  | cons c conditions ih =>
    rw [addAll_cons, Option.bind_eq_some_iff] at merged
    obtain ⟨next, added, merged⟩ := merged
    obtain ⟨first, windowsOnly⟩ := settles_add added
    have others := ih merged
    refine ⟨others.within.trans first.within, others.possible ∘ first.possible, ?_⟩
    intro w within areas
    rw [List.filter_cons]
    split
    · rw [addAll_cons, first.again w (within.trans others.within) areas, Option.bind_some]
      exact others.again w within areas
    · next isWindow =>
      rw [Bool.not_eq_true, Bool.not_eq_false'] at isWindow
      have same := others.again w within areas
      rw [windowsOnly isWindow] at same
      exact same

theorem addAll_append (r : Requirements) (conditions others : List Condition) :
    r.addAll (conditions ++ others) =
      (r.addAll conditions).bind fun after => after.addAll others := by
  rw [addAll, List.foldlM_append]
  rfl

theorem addAll_condition? {window : Window} {kind : ConditionKind} {bound : Int32}
    (within : window.IsWithin (.upTo bound)) (wide : window = .upTo bound → after = r)
    (narrow : r.add (.ofRange kind window.min window.max) = some after) :
    r.addAll (window.condition? kind bound) = some after := by
  rw [Window.condition?]
  split
  · rw [addAll_cons, narrow]
    rfl
  · next notNarrow =>
    rw [wide (Window.eq_upTo_of_not_isNarrowerThan within notNarrow)]
    rfl

theorem addAll_conditions {w : Windows} (within : w.IsWithin {}) (areas : w.ArePossible) :
    addAll {} w.conditions = some { windows := w } := by
  have lengths : addAll {} (w.lengths.condition? .length beyondLengths) =
      some { windows := { lengths := w.lengths } } := by
    refine addAll_condition? within.lengths (fun wide => by rw [wide]) ?_
    have tightened := Window.tighten_eq_of_isWithin within.lengths
    simp only [add, boundLength, Condition.ofRange, tightened]
    exact if_pos areas.lengths
  have vowels : addAll { windows := { lengths := w.lengths } }
        (w.vowels.condition? .vowelCount beyondLengths) =
      some { windows := { lengths := w.lengths, vowels := w.vowels } } := by
    refine addAll_condition? within.vowels (fun wide => by rw [wide]) ?_
    have tightened := Window.tighten_eq_of_isWithin within.vowels
    simp only [add, Condition.ofRange, tightened]
    exact if_pos areas.vowels
  have uniqueLetters : addAll { windows := { lengths := w.lengths, vowels := w.vowels } }
        (w.uniqueLetters.condition? .uniqueLetterCount beyondLengths) =
      some { windows := { w with points := .upTo beyondPoints, anagrams := .upTo anagramBound } } := by
    refine addAll_condition? within.uniqueLetters (fun wide => by rw [wide]) ?_
    have tightened := Window.tighten_eq_of_isWithin within.uniqueLetters
    simp only [add, Condition.ofRange, tightened]
    exact if_pos areas.uniqueLetters
  have points : addAll
        { windows := { w with points := .upTo beyondPoints, anagrams := .upTo anagramBound } }
        (w.points.condition? .pointValue beyondPoints) =
      some { windows := { w with anagrams := .upTo anagramBound } } := by
    refine addAll_condition? within.points (fun wide => by rw [wide]) ?_
    have tightened := Window.tighten_eq_of_isWithin within.points
    simp only [add, Condition.ofRange, tightened]
    exact if_pos areas.points
  have anagrams : addAll { windows := { w with anagrams := .upTo anagramBound } }
        (w.anagrams.condition? .anagramCount anagramBound) = some { windows := w } := by
    refine addAll_condition? within.anagrams (fun wide => by rw [← wide]) ?_
    have tightened := Window.tighten_eq_of_isWithin within.anagrams
    simp only [add, Condition.ofRange, tightened]
    exact if_pos areas.anagrams
  simp only [Windows.conditions, addAll_append, lengths, vowels, uniqueLetters, points, anagrams,
    Option.bind_some]

end Requirements

/-! ## Optimizing a second time -/

namespace SearchSpec

variable {conditions merged : List Condition}

theorem map_canonical_of_canonical (canonical : ∀ c ∈ conditions, c.canonical = c) :
    conditions.map Condition.canonical = conditions :=
  (List.map_congr_left canonical).trans (List.map_id _)

theorem canonical_of_isWindow {c : Condition} (isWindow : c.kind.isWindow = true) :
    c.canonical = c := by
  apply Condition.canonical_of_other (ConditionKind.isMatch_of_isWindow isWindow)
  rintro isLetters
  rw [isLetters] at isWindow
  contradiction

theorem mergeAll_congr {others : List Condition} {r s : Requirements}
    (added : Requirements.addAll {} (conditions.map Condition.canonical) = some r)
    (addedOthers : Requirements.addAll {} (others.map Condition.canonical) = some s)
    (windows : s.windows = r.windows)
    (same : (others.map Condition.canonical).filter (fun c => !c.kind.isWindow) =
      (conditions.map Condition.canonical).filter fun c => !c.kind.isWindow) :
    mergeAll others = mergeAll conditions := by
  simp only [mergeAll, added, addedOthers, windows, same, Option.bind_eq_bind, Option.bind_some]

theorem mergeAll_mergeAll (done : mergeAll conditions = some merged) :
    mergeAll merged = some merged := by
  obtain ⟨r, added, shape⟩ := mergeAll_eq_some done
  have settled := Requirements.settles_addAll added
  have within : r.windows.IsWithin {} := settled.within
  have areas : r.windows.ArePossible := settled.possible Windows.arePossible_default
  have noWindow : r.windows.conditions.filter (fun c => !c.kind.isWindow) = [] := by
    rw [List.filter_eq_nil_iff]
    intro c member
    rw [isWindow_of_mem_conditions member]
    decide
  rcases shape with rfl | ⟨rfl, none⟩
  · have canonical : ∀ c ∈ r.windows.conditions ++
        (conditions.map Condition.canonical).filter (fun c => !c.kind.isWindow), c.canonical = c := by
      intro c member
      rcases List.mem_append.mp member with window | other
      · exact canonical_of_isWindow (isWindow_of_mem_conditions window)
      · obtain ⟨written, _, rfl⟩ := List.mem_map.mp (List.mem_filter.mp other).1
        exact written.canonical_canonical
    rw [← done]
    refine mergeAll_congr (s := r) added ?_ rfl ?_
    · rw [map_canonical_of_canonical canonical, Requirements.addAll_append,
        Requirements.addAll_conditions within areas, Option.bind_some]
      exact settled.again r.windows (.refl _) areas
    · rw [map_canonical_of_canonical canonical, List.filter_append, noWindow, List.nil_append,
        List.filter_filter]
      simp only [Bool.and_self]
  · -- nothing was bounded, and the widest length that stands for this is merged to itself
    rw [Windows.eq_default_of_conditions within (List.append_eq_nil_iff.mp none).1]
    rfl

/-- A search that was optimized stays as it is when it is optimized once more. It is known to be
normal if it was; otherwise no condition is left, and nothing is known about it. -/
theorem optimize_optimize (spec : SearchSpec) :
    spec.optimize.1.optimize =
      (spec.optimize.1, if spec.optimize.2 = .normal then .normal else .unconstrained) := by
  cases state : spec.optimize.2 with
  | unconstrained =>
    rw [optimize_of_nil (optimize_unconstrained state)]
    exact optimize_of_nil (optimize_unconstrained state)
  | contradictory =>
    rw [(optimize_contradictory state).2.2]
    exact optimize_of_nil rfl
  | normal =>
    rw [if_pos rfl]
    have nonempty : spec.conditions ≠ [] := by
      intro empty
      rw [optimize_of_nil empty] at state
      contradiction
    rcases optimize_normal state with ⟨any, same⟩ | ⟨all, merged, done, same⟩
    · have twice : Condition.canonical ∘ Condition.canonical = Condition.canonical :=
        funext Condition.canonical_canonical
      have again : SearchSpec.optimize
          { spec with conditions := spec.conditions.map Condition.canonical } = _ :=
        optimize_of_any (by simpa using nonempty) any
      rw [same, again]
      simp only [List.map_map, twice]
    · have again : SearchSpec.optimize { spec with conditions := merged } = _ :=
        optimize_of_all (mergeAll_ne_nil done) all
      rw [same, again]
      simp only [mergeAll_mergeAll done]

end SearchSpec

end WordFinder
