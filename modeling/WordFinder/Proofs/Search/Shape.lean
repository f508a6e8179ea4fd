import Mathlib
import WordFinder.Proofs.Search.NormalForm

/-!
# The shape of an optimized search

Conditions that must all hold are optimized to the bounds of their windows, each kind at most once
and in a fixed order, followed by the conditions that no window expresses. A window only ever gets
tighter and is checked each time, so its bounds stay in order and within what words can have.
Something is always left, unless the conditions contradict each other.
-/
set_option autoImplicit false

namespace WordFinder

variable {c : Condition}

structure Condition.IsRangeUpTo (c : Condition) (most : Int) : Prop where
  range : c = .ofRange c.kind c.min c.max
  least : 0 ≤ c.min.toInt
  ordered : c.min.toInt ≤ c.max.toInt
  most : c.max.toInt ≤ most

/-! ## The bounds of windows -/

theorem Window.isRangeUpTo_of_mem {w : Window} {kind : ConditionKind} {bound : Int32}
    (within : w.IsWithin (.upTo bound)) (nonempty : w.isNonempty = true)
    (member : c ∈ w.condition? kind bound) :
    c.kind = kind ∧ c.IsRangeUpTo bound.toInt ∧ (0 < c.min.toInt ∨ c.max.toInt < bound.toInt) := by
  rw [condition?] at member
  split at member
  · next narrow =>
    obtain rfl := List.mem_singleton.mp member
    rw [isNarrowerThan, Bool.or_eq_true, decide_eq_true_eq, decide_eq_true_eq, gt_iff_lt,
      Int32.lt_iff_toInt_lt, Int32.lt_iff_toInt_lt] at narrow
    rw [isNonempty, decide_eq_true_eq, Int32.le_iff_toInt_le] at nonempty
    exact ⟨rfl, ⟨rfl, within.least, nonempty, within.most⟩, narrow⟩
  · contradiction

theorem Window.map_kind_condition? (w : Window) (kind : ConditionKind) (bound : Int32) :
    ((w.condition? kind bound).map Condition.kind).Sublist [kind] := by
  rw [condition?]
  split
  · exact List.Sublist.refl [kind]
  · exact List.nil_sublist [kind]

namespace Windows

/-- The kinds that windows express, in their order, each with the largest bound that a word could
reach or go beyond. -/
def kinds : List (ConditionKind × Int) :=
  [(.length, 16), (.vowelCount, 16), (.uniqueLetterCount, 16), (.pointValue, 151),
    (.anagramCount, 65535)]

variable {w : Windows}

theorem map_kind_conditions (w : Windows) :
    (w.conditions.map Condition.kind).Sublist (kinds.map Prod.fst) := by
  rw [conditions, List.map_append, List.map_append, List.map_append, List.map_append]
  exact ((((w.lengths.map_kind_condition? _ _).append (w.vowels.map_kind_condition? _ _)).append
    (w.uniqueLetters.map_kind_condition? _ _)).append (w.points.map_kind_condition? _ _)).append
    (w.anagrams.map_kind_condition? _ _)

theorem isRangeUpTo_of_mem (within : w.IsWithin {}) (possible : w.ArePossible)
    (member : c ∈ w.conditions) :
    ∃ most, (c.kind, most) ∈ kinds ∧ c.IsRangeUpTo most ∧
      (0 < c.min.toInt ∨ c.max.toInt < most) := by
  -- each check of a window ends with the test that it is not empty
  have nonempty {rest isNonempty : Bool} (checked : (rest && isNonempty) = true) :
      isNonempty = true := (Bool.and_eq_true_iff.mp checked).2
  have ofWindow {window : Window} {kind : ConditionKind} {bound : Int32}
      (within : window.IsWithin (.upTo bound)) (nonempty : window.isNonempty = true)
      (listed : (kind, bound.toInt) ∈ kinds) (member : c ∈ window.condition? kind bound) :
      ∃ most, (c.kind, most) ∈ kinds ∧ c.IsRangeUpTo most ∧
        (0 < c.min.toInt ∨ c.max.toInt < most) := by
    obtain ⟨rfl, range, narrow⟩ := Window.isRangeUpTo_of_mem within nonempty member
    exact ⟨_, listed, range, narrow⟩
  simp only [conditions, List.mem_append] at member
  rcases member with (((lengths | vowels) | uniqueLetters) | points) | anagrams
  · exact ofWindow within.lengths (nonempty possible.lengths) (by decide) lengths
  · exact ofWindow within.vowels (nonempty possible.vowels) (by decide) vowels
  · exact ofWindow within.uniqueLetters (nonempty possible.uniqueLetters) (by decide) uniqueLetters
  · exact ofWindow within.points (nonempty possible.points) (by decide) points
  · exact ofWindow within.anagrams (nonempty possible.anagrams) (by decide) anagrams

/-- The conditions of the windows in front of others, where the lengths stand in if there are
neither the one nor the other. -/
def inFrontOf (w : Windows) (others : List Condition) : List Condition :=
  if w.conditions ++ others = [] then [.ofRange .length w.lengths.min w.lengths.max]
  else w.conditions

theorem inFrontOf_ne_nil (w : Windows) (others : List Condition) :
    w.inFrontOf others ++ others ≠ [] := by
  rw [inFrontOf]
  split
  · exact List.cons_ne_nil _ _
  · assumption

end Windows

/-! ## What merging leaves -/

namespace SearchSpec

variable {conditions merged : List Condition}

def kept (conditions : List Condition) : List Condition :=
  (conditions.filter fun c => !c.kind.isWindow).map Condition.canonical

theorem filter_map_canonical (conditions : List Condition) :
    (conditions.map Condition.canonical).filter (fun c => !c.kind.isWindow) = kept conditions := by
  rw [kept, List.filter_map]
  simp only [Function.comp_def, Condition.kind_canonical]

theorem mergeAll_eq_some_iff :
    mergeAll conditions = some merged ↔
      ∃ r, Requirements.addAll {} (conditions.map Condition.canonical) = some r ∧
        r.windows.areConsistent = true ∧
        merged = r.windows.inFrontOf (kept conditions) ++ kept conditions := by
  simp only [mergeAll, Option.bind_eq_bind, Option.bind_eq_some_iff, filter_map_canonical]
  refine exists_congr fun r => and_congr_right fun _ => ?_
  cases r.windows.areConsistent with
  | false => simp
  | true =>
    simp only [Bool.not_true, Bool.false_eq_true, if_false, true_and, Windows.inFrontOf]
    split
    · next none =>
      rw [if_pos none, (List.append_eq_nil_iff.mp none).2, List.append_nil, Option.some_inj]
      exact eq_comm
    · next some =>
      rw [if_neg some, Option.some_inj]
      exact eq_comm

/-- Conditions that must all hold are optimized to ranges of the kinds that windows express, each
narrower than what words can have, in front of the other conditions. The widest length stands alone
for conditions that bound nothing. -/
theorem optimize_shape {spec : SearchSpec} (nonempty : spec.conditions ≠ [])
    (all : spec.conjunction = true) :
    (spec.optimize.2 = .normal ↔ spec.optimize.1.conditions ≠ []) ∧
      (spec.optimize.2 = .normal → ∃ bounds,
        spec.optimize.1 = { spec with conditions := bounds ++ kept spec.conditions } ∧
          (bounds.map Condition.kind).Sublist (Windows.kinds.map Prod.fst) ∧
          ∀ c ∈ bounds, ∃ most, (c.kind, most) ∈ Windows.kinds ∧ c.IsRangeUpTo most ∧
            (0 < c.min.toInt ∨ c.max.toInt < most ∨
              spec.optimize.1.conditions = [.ofRange .length 0 16])) := by
  rw [optimize_of_all nonempty all]
  cases done : mergeAll spec.conditions with
  | none => exact ⟨by simp, by simp⟩
  | some merged =>
    obtain ⟨r, added, -, rfl⟩ := mergeAll_eq_some_iff.mp done
    refine ⟨iff_of_true rfl (r.windows.inFrontOf_ne_nil _), fun _ => ?_⟩
    have settled := Requirements.settles_addAll added
    have within : r.windows.IsWithin {} := settled.within
    have possible : r.windows.ArePossible := settled.possible Windows.arePossible_default
    refine ⟨r.windows.inFrontOf (kept spec.conditions), rfl, ?_⟩
    simp only [Windows.inFrontOf]
    split
    · -- the windows are as wide as at first, and nothing stands behind their lengths
      next none =>
      obtain ⟨noBounds, noOthers⟩ := List.append_eq_nil_iff.mp none
      rw [Windows.eq_default_of_conditions within noBounds, noOthers]
      refine ⟨by decide, fun c member => ?_⟩
      obtain rfl := List.mem_singleton.mp member
      exact ⟨16, by decide, ⟨rfl, by decide, by decide, by decide⟩, Or.inr (Or.inr rfl)⟩
    · refine ⟨r.windows.map_kind_conditions, fun c member => ?_⟩
      obtain ⟨most, listed, range, narrow⟩ :=
        Windows.isRangeUpTo_of_mem within possible member
      exact ⟨most, listed, range, narrow.imp_right Or.inl⟩

/-- A bound below zero goes to zero, and the lengths of two conditions meet in front of a prefix. -/
theorem optimize_shape_of_prefix :
    let spec := allOf [.ofRange .vowelCount (-2) 3, .ofText .takesPrefix "re", .ofRange .length 2 9,
      .ofText .anagramMatch "c?t"]
    spec.optimize.2 = .normal ∧ ∃ bounds,
      spec.optimize.1 = { spec with conditions := bounds ++ kept spec.conditions } ∧
        (bounds.map Condition.kind).Sublist (Windows.kinds.map Prod.fst) ∧
        ∀ c ∈ bounds, ∃ most, (c.kind, most) ∈ Windows.kinds ∧ c.IsRangeUpTo most ∧
          (0 < c.min.toInt ∨ c.max.toInt < most ∨
            spec.optimize.1.conditions = [.ofRange .length 0 16]) := by
  intro spec
  have normal : spec.optimize.2 = .normal := by cbv
  exact ⟨normal, (optimize_shape (by decide) rfl).2 normal⟩

end SearchSpec

end WordFinder
