import Mathlib
import WordFinder.Proofs.Search.Shape

/-!
# The order of conditions

Each condition bounds windows, letters and names by itself, and merging conditions joins what each
of them asks for. A contradiction may be found early or late, but requirements that cannot be met
stay so whatever is joined to them. So merging succeeds if everything asked for can be met together,
and this does not depend on the order in which it was asked for.
-/
set_option autoImplicit false

namespace WordFinder

/-! ## Windows that hold together -/

namespace Window

def unbounded : Window := ⟨Int32.minValue, Int32.maxValue⟩

def meet (w v : Window) : Window := w.tighten v.min v.max

@[simp]
theorem meet_unbounded (w : Window) : w.meet unbounded = w := by
  have least : Int32.minValue.toInt ≤ w.min.toInt := w.min.minValue_le_toInt
  have most : w.max.toInt ≤ Int32.maxValue.toInt := w.max.toInt_le
  apply eq_of_toInt <;> simp only [meet, unbounded, tighten, toInt_max, toInt_min] <;> omega

theorem meet_right_comm (w v u : Window) : (w.meet v).meet u = (w.meet u).meet v := by
  apply eq_of_toInt <;> simp only [meet, tighten, toInt_max, toInt_min] <;> omega

end Window

namespace Windows

variable {inner outer : Windows}

def meet (w v : Windows) : Windows where
  lengths := w.lengths.meet v.lengths
  vowels := w.vowels.meet v.vowels
  uniqueLetters := w.uniqueLetters.meet v.uniqueLetters
  points := w.points.meet v.points
  anagrams := w.anagrams.meet v.anagrams

theorem meet_right_comm (w v u : Windows) : (w.meet v).meet u = (w.meet u).meet v := by
  simp only [meet, Window.meet_right_comm]

theorem isWithin_meet (w v : Windows) : (w.meet v).IsWithin w :=
  ⟨Window.isWithin_tighten _ _ _, Window.isWithin_tighten _ _ _, Window.isWithin_tighten _ _ _,
    Window.isWithin_tighten _ _ _, Window.isWithin_tighten _ _ _⟩

theorem ArePossible.of_isWithin (possible : inner.ArePossible) (within : inner.IsWithin outer) :
    outer.ArePossible := by
  obtain ⟨lengths, vowels, uniqueLetters, points, anagrams⟩ := possible
  obtain ⟨⟨_, _⟩, ⟨_, _⟩, ⟨_, _⟩, ⟨_, _⟩, ⟨_, _⟩⟩ := within
  simp only [lengthsPossible, vowelsPossible, uniqueLettersPossible, pointsPossible,
    anagramsPossible, Window.isNonempty, Bool.and_eq_true, decide_eq_true_eq, ge_iff_le, gt_iff_lt,
    Int32.le_iff_toInt_le, Int32.lt_iff_toInt_lt] at lengths vowels uniqueLetters points anagrams
  constructor <;>
    simp only [lengthsPossible, vowelsPossible, uniqueLettersPossible, pointsPossible,
      anagramsPossible, Window.isNonempty, Bool.and_eq_true, decide_eq_true_eq, ge_iff_le,
      gt_iff_lt, Int32.le_iff_toInt_le, Int32.lt_iff_toInt_lt] <;> omega

end Windows

/-! ## What one condition asks for -/

namespace Condition

def range (c : Condition) (kind : ConditionKind) : Window :=
  if c.kind = kind then ⟨c.min, c.max⟩ else .unbounded

/-- The lengths of the words that can meet a condition, as far as it says. -/
def lengthRange (c : Condition) : Window :=
  match c.kind with
  | .patternMatch | .anagramMatch | .subanagramMatch =>
    if c.negated || c.string.toList.contains '*' then .unbounded
    else
      let slots := Int32.ofNat (SearchString.slotCount c.string)
      ⟨if c.kind = .subanagramMatch then 0 else slots, slots⟩
  | .belongsToGroup =>
    match if c.negated then none else (WordGroup.ofName? c.string).bind WordGroup.length? with
    | some n => ⟨.ofNat n, .ofNat n⟩
    | none => .unbounded
  | _ => c.range .length

def letters (c : Condition) (negated : Bool) : List Char :=
  if c.kind = .includesLetters ∧ c.negated = negated then c.string.toList.filter Char.isUpper
  else []

def names (c : Condition) (kind : ConditionKind) : List (String × Bool) :=
  if c.kind = kind then [(c.string, c.negated)] else []

def requirements (c : Condition) : Requirements where
  windows :=
    { lengths := c.lengthRange
      vowels := c.range .vowelCount
      uniqueLetters := c.range .uniqueLetterCount
      points := c.range .pointValue
      anagrams := c.range .anagramCount }
  included := c.letters false
  excluded := c.letters true
  lexicons := c.names .inLexicon
  partsOfSpeech := c.names .partOfSpeech

end Condition

namespace Requirements

variable {r s after : Requirements} {c : Condition}

def join (r s : Requirements) : Requirements where
  windows := r.windows.meet s.windows
  included := r.included ++ s.included
  excluded := r.excluded ++ s.excluded
  lexicons := s.lexicons ++ r.lexicons
  partsOfSpeech := s.partsOfSpeech ++ r.partsOfSpeech

/-- No name is asked for in both senses. -/
def AgreeOnNames (names : List (String × Bool)) : Prop :=
  ∀ name, (name, true) ∈ names → (name, false) ∉ names

/-- No window is empty or out of range, no letter is both required and refused, and no name is asked
for in both senses. -/
structure CanBeMet (r : Requirements) : Prop where
  windows : r.windows.ArePossible
  letters : r.included.Disjoint r.excluded
  lexicons : AgreeOnNames r.lexicons
  partsOfSpeech : AgreeOnNames r.partsOfSpeech

theorem CanBeMet.of_join (both : (r.join s).CanBeMet) : r.CanBeMet where
  windows := both.windows.of_isWithin (r.windows.isWithin_meet s.windows)
  letters _ required refused :=
    both.letters (List.mem_append_left _ required) (List.mem_append_left _ refused)
  lexicons name isNegated isPositive :=
    both.lexicons name (List.mem_append_right _ isNegated) (List.mem_append_right _ isPositive)
  partsOfSpeech name isNegated isPositive :=
    both.partsOfSpeech name (List.mem_append_right _ isNegated) (List.mem_append_right _ isPositive)

/-! ## Merging joins what conditions ask for -/

theorem checked_eq_some_iff {next : Requirements} {possible : Prop} [Decidable possible]
    (decides : next.CanBeMet ↔ possible) :
    (if possible then some next else none) = some after ↔ after = next ∧ after.CanBeMet := by
  split
  · next found =>
    rw [Option.some_inj]
    constructor
    · rintro rfl
      exact ⟨rfl, decides.mpr found⟩
    · exact fun both => both.1.symm
  · next notFound =>
    constructor
    · intro none
      contradiction
    · rintro ⟨rfl, canBeMet⟩
      exact absurd (decides.mp canBeMet) notFound

theorem unchanged_eq_some_iff (canBeMet : r.CanBeMet) :
    some r = some after ↔ after = r ∧ after.CanBeMet :=
  checked_eq_some_iff (iff_true_intro canBeMet)

theorem withWindows_eq_some_iff (canBeMet : r.CanBeMet) {windows : Windows} {possible : Bool}
    (decides : windows.ArePossible ↔ possible = true) :
    (if possible then some { r with windows } else none) = some after ↔
      after = { r with windows } ∧ after.CanBeMet :=
  checked_eq_some_iff ⟨fun after => decides.mp after.windows,
    fun found => { canBeMet with windows := decides.mpr found }⟩

theorem boundLength_eq_some_iff (canBeMet : r.CanBeMet) {least most : Int32} :
    r.boundLength least most = some after ↔
      after = { r with
        windows := { r.windows with lengths := r.windows.lengths.meet ⟨least, most⟩ } } ∧
        after.CanBeMet :=
  withWindows_eq_some_iff canBeMet
    ⟨fun possible => possible.lengths, fun found => { canBeMet.windows with lengths := found }⟩

theorem canBeMet_withLetters_iff (canBeMet : r.CanBeMet) (included excluded : List Char) :
    CanBeMet { r with included, excluded } ↔ included.Disjoint excluded :=
  ⟨fun after => after.letters, fun letters => { canBeMet with letters }⟩

theorem disjoint_iff_not_any (letters others : List Char) :
    letters.Disjoint others ↔ ¬letters.any others.contains = true := by
  simp only [List.any_eq_true, List.contains_iff_mem, not_exists, not_and]
  rfl

theorem addLetters_eq_some_iff (canBeMet : r.CanBeMet) (isLetters : c.kind = .includesLetters) :
    r.addLetters c = some after ↔
      after = { r with
        included := r.included ++ c.letters false
        excluded := r.excluded ++ c.letters true } ∧ after.CanBeMet := by
  simp only [addLetters, Condition.letters, isLetters, true_and]
  cases c.negated with
  | true =>
    simp only [reduceCtorEq, if_true, if_false, List.append_nil]
    rw [← ite_not]
    refine checked_eq_some_iff ?_
    rw [canBeMet_withLetters_iff canBeMet, List.disjoint_append_right, ← disjoint_iff_not_any,
      and_iff_right canBeMet.letters]
    exact List.disjoint_comm
  | false =>
    simp only [reduceCtorEq, if_true, if_false, List.append_nil]
    rw [← ite_not]
    refine checked_eq_some_iff ?_
    rw [canBeMet_withLetters_iff canBeMet, List.disjoint_append_left, ← disjoint_iff_not_any,
      and_iff_right canBeMet.letters]

theorem agreeOnNames_cons_iff {names : List (String × Bool)} (agree : AgreeOnNames names)
    (name : String) (negated : Bool) :
    AgreeOnNames ((name, negated) :: names) ↔ ¬names.contains (name, !negated) := by
  simp only [AgreeOnNames, List.mem_cons, Prod.mk.injEq, List.contains_iff_mem]
  cases negated <;> grind [AgreeOnNames]

/-- A name is added exactly if it agrees with the names so far. -/
theorem map_addName_eq_some_iff {names : List (String × Bool)} (agree : AgreeOnNames names)
    {extend : List (String × Bool) → Requirements}
    (decides : ∀ names, (extend names).CanBeMet ↔ AgreeOnNames names) :
    (addName names c).map extend = some after ↔
      after = extend ((c.string, c.negated) :: names) ∧ after.CanBeMet := by
  rw [addName, ← ite_not, apply_ite (Option.map extend)]
  refine checked_eq_some_iff ?_
  rw [decides, agreeOnNames_cons_iff agree]

/-- A condition is merged exactly if what it asks for can be met together with the rest. -/
theorem add_eq_some_iff (canBeMet : r.CanBeMet) :
    r.add c = some after ↔ after = r.join c.requirements ∧ after.CanBeMet := by
  have windows := canBeMet.windows
  cases kind : c.kind
  -- the letters are kept folded here, and are none for every other kind
  case includesLetters =>
    have added : r.addLetters c = some after ↔ _ := addLetters_eq_some_iff canBeMet kind
    simp only [add, kind, added, join, Condition.requirements, Condition.lengthRange,
      Condition.range, Condition.names, Windows.meet, Window.meet_unbounded, reduceCtorEq, if_false,
      List.nil_append]
  all_goals simp only [add, kind, join, Condition.requirements, Condition.range, Condition.letters,
    Condition.names, Condition.lengthRange, Windows.meet, Window.meet_unbounded, reduceCtorEq,
    if_false, if_true, false_and, List.append_nil, List.nil_append]
  case patternMatch | anagramMatch | subanagramMatch =>
    simp only [boundByMatch, kind, reduceCtorEq, if_false, if_true]
    split
    · rw [Window.meet_unbounded]
      exact unchanged_eq_some_iff canBeMet
    · exact boundLength_eq_some_iff canBeMet
  case length => exact boundLength_eq_some_iff canBeMet
  case belongsToGroup =>
    rw [boundByGroup]
    cases if c.negated then none else (WordGroup.ofName? c.string).bind WordGroup.length? with
    | some n => exact boundLength_eq_some_iff canBeMet
    | none =>
      simp only [Window.meet_unbounded]
      exact unchanged_eq_some_iff canBeMet
  case inLexicon =>
    exact map_addName_eq_some_iff canBeMet.lexicons fun names =>
      ⟨fun after => after.lexicons, fun agree => { canBeMet with lexicons := agree }⟩
  case partOfSpeech =>
    exact map_addName_eq_some_iff canBeMet.partsOfSpeech fun names =>
      ⟨fun after => after.partsOfSpeech, fun agree => { canBeMet with partsOfSpeech := agree }⟩
  case anagramCount =>
    exact withWindows_eq_some_iff canBeMet
      ⟨fun possible => possible.anagrams, fun found => { windows with anagrams := found }⟩
  case vowelCount =>
    exact withWindows_eq_some_iff canBeMet
      ⟨fun possible => possible.vowels, fun found => { windows with vowels := found }⟩
  case uniqueLetterCount =>
    exact withWindows_eq_some_iff canBeMet
      ⟨fun possible => possible.uniqueLetters,
        fun found => { windows with uniqueLetters := found }⟩
  case pointValue =>
    exact withWindows_eq_some_iff canBeMet
      ⟨fun possible => possible.points, fun found => { windows with points := found }⟩
  all_goals exact unchanged_eq_some_iff canBeMet

def joinAll (r : Requirements) (conditions : List Condition) : Requirements :=
  conditions.foldl (fun r c => r.join c.requirements) r

theorem CanBeMet.of_joinAll {conditions : List Condition} (all : (r.joinAll conditions).CanBeMet) :
    r.CanBeMet := by
  induction conditions generalizing r with
  | nil => exact all
  | cons c conditions ih => exact (ih all).of_join

theorem addAll_eq_some_iff (canBeMet : r.CanBeMet) {conditions : List Condition} :
    r.addAll conditions = some after ↔ after = r.joinAll conditions ∧ after.CanBeMet := by
  induction conditions generalizing r with
  | nil => exact unchanged_eq_some_iff canBeMet
  | cons c conditions ih =>
    rw [addAll_cons, Option.bind_eq_some_iff]
    constructor
    · rintro ⟨next, added, merged⟩
      obtain ⟨rfl, nextCanBeMet⟩ := (add_eq_some_iff canBeMet).mp added
      exact (ih nextCanBeMet).mp merged
    · rintro ⟨rfl, all⟩
      have others : ((r.join c.requirements).joinAll conditions).CanBeMet := all
      have next := others.of_joinAll
      exact ⟨_, (add_eq_some_iff canBeMet).mpr ⟨rfl, next⟩, (ih next).mpr ⟨rfl, others⟩⟩

/-! ## Conditions in another order -/

/-- Requirements that ask for the same, in whatever order. -/
structure AskTheSame (r s : Requirements) : Prop where
  windows : r.windows = s.windows
  included : r.included.Perm s.included
  excluded : r.excluded.Perm s.excluded
  lexicons : r.lexicons.Perm s.lexicons
  partsOfSpeech : r.partsOfSpeech.Perm s.partsOfSpeech

theorem AskTheSame.refl (r : Requirements) : r.AskTheSame r :=
  ⟨rfl, .refl _, .refl _, .refl _, .refl _⟩

theorem AskTheSame.trans {t : Requirements} (first : r.AskTheSame s) (second : s.AskTheSame t) :
    r.AskTheSame t :=
  ⟨first.windows.trans second.windows, first.included.trans second.included,
    first.excluded.trans second.excluded, first.lexicons.trans second.lexicons,
    first.partsOfSpeech.trans second.partsOfSpeech⟩

theorem AskTheSame.canBeMet (same : r.AskTheSame s) (canBeMet : r.CanBeMet) : s.CanBeMet where
  windows := same.windows ▸ canBeMet.windows
  letters _ required refused :=
    canBeMet.letters (same.included.mem_iff.mpr required) (same.excluded.mem_iff.mpr refused)
  lexicons name isNegated isPositive :=
    canBeMet.lexicons name (same.lexicons.mem_iff.mpr isNegated)
      (same.lexicons.mem_iff.mpr isPositive)
  partsOfSpeech name isNegated isPositive :=
    canBeMet.partsOfSpeech name (same.partsOfSpeech.mem_iff.mpr isNegated)
      (same.partsOfSpeech.mem_iff.mpr isPositive)

theorem AskTheSame.join (same : r.AskTheSame s) (t : Requirements) :
    (r.join t).AskTheSame (s.join t) where
  windows := congrArg (·.meet t.windows) same.windows
  included := same.included.append_right _
  excluded := same.excluded.append_right _
  lexicons := same.lexicons.append_left _
  partsOfSpeech := same.partsOfSpeech.append_left _

theorem AskTheSame.joinAll (same : r.AskTheSame s) (conditions : List Condition) :
    (r.joinAll conditions).AskTheSame (s.joinAll conditions) := by
  induction conditions generalizing r s with
  | nil => exact same
  | cons c conditions ih => exact ih (same.join c.requirements)

theorem askTheSame_join_right_comm (r s t : Requirements) :
    ((r.join s).join t).AskTheSame ((r.join t).join s) where
  windows := Windows.meet_right_comm _ _ _
  included := by
    simp only [Requirements.join, List.append_assoc]
    exact List.perm_append_comm.append_left _
  excluded := by
    simp only [Requirements.join, List.append_assoc]
    exact List.perm_append_comm.append_left _
  lexicons := by
    simp only [Requirements.join, ← List.append_assoc]
    exact List.perm_append_comm.append_right _
  partsOfSpeech := by
    simp only [Requirements.join, ← List.append_assoc]
    exact List.perm_append_comm.append_right _

/-- Two conditions that change places ask for the same, and so do those joined after them. -/
theorem askTheSame_joinAll {conditions others : List Condition} (perm : conditions.Perm others)
    (r : Requirements) : (r.joinAll conditions).AskTheSame (r.joinAll others) := by
  induction perm generalizing r with
  | nil => exact .refl r
  | cons c _ ih => exact ih (r.join c.requirements)
  | swap c d conditions =>
    exact (askTheSame_join_right_comm r d.requirements c.requirements).joinAll conditions
  | trans _ _ first second => exact (first r).trans (second r)

theorem canBeMet_default : CanBeMet {} where
  windows := Windows.arePossible_default
  letters := List.disjoint_nil_left []
  lexicons _ member := absurd member List.not_mem_nil
  partsOfSpeech _ member := absurd member List.not_mem_nil

theorem addAll_perm {conditions others : List Condition} (perm : conditions.Perm others)
    (merged : addAll {} conditions = some r) :
    ∃ s, addAll {} others = some s ∧ s.windows = r.windows := by
  obtain ⟨rfl, canBeMet⟩ := (addAll_eq_some_iff canBeMet_default).mp merged
  have same := askTheSame_joinAll perm {}
  refine ⟨_, (addAll_eq_some_iff canBeMet_default).mpr ⟨rfl, ?_⟩, same.windows.symm⟩
  exact same.canBeMet canBeMet

end Requirements

namespace SearchSpec

variable {conditions others merged : List Condition}

theorem isWindow_of_mem_inFrontOf {w : Windows} {c : Condition} (member : c ∈ w.inFrontOf others) :
    c.kind.isWindow = true := by
  rw [Windows.inFrontOf] at member
  split at member
  · obtain rfl := List.mem_singleton.mp member
    rfl
  · exact isWindow_of_mem_conditions member

theorem inFrontOf_perm (w : Windows) (perm : conditions.Perm others) :
    w.inFrontOf conditions = w.inFrontOf others := by
  have none : conditions = [] ↔ others = [] := by
    rw [← List.isEmpty_iff, ← List.isEmpty_iff, perm.isEmpty_eq]
  simp only [Windows.inFrontOf, List.append_eq_nil_iff, none]

theorem kept_perm (perm : conditions.Perm others) : (kept conditions).Perm (kept others) :=
  (perm.filter _).map _

theorem mergeAll_perm (perm : conditions.Perm others) (done : mergeAll conditions = some merged) :
    ∃ bounds, (∀ c ∈ bounds, c.kind.isWindow = true) ∧ merged = bounds ++ kept conditions ∧
      mergeAll others = some (bounds ++ kept others) := by
  obtain ⟨r, added, consistent, rfl⟩ := mergeAll_eq_some_iff.mp done
  obtain ⟨s, addedOthers, same⟩ := Requirements.addAll_perm (perm.map Condition.canonical) added
  refine ⟨r.windows.inFrontOf (kept conditions), fun c => isWindow_of_mem_inFrontOf, rfl,
    mergeAll_eq_some_iff.mpr ⟨s, addedOthers, ?_, ?_⟩⟩
  · rw [same, consistent]
  · rw [same, inFrontOf_perm _ (kept_perm perm)]

/-- The order of conditions that must all hold decides neither what is known about a search nor the
bounds that it is optimized to; the conditions behind the bounds keep the order that they had. -/
theorem optimize_perm {spec : SearchSpec} {others : List Condition} (all : spec.conjunction = true)
    (perm : others.Perm spec.conditions) :
    let reordered := { spec with conditions := others }
    reordered.optimize.2 = spec.optimize.2 ∧
      (spec.optimize.2 = .normal → ∃ bounds, (∀ c ∈ bounds, c.kind.isWindow = true) ∧
        spec.optimize.1 = { spec with conditions := bounds ++ kept spec.conditions } ∧
        reordered.optimize.1 = { spec with conditions := bounds ++ kept others } ∧
        (kept others).Perm (kept spec.conditions)) := by
  intro reordered
  by_cases empty : spec.conditions = []
  · have emptyToo : reordered.conditions = [] := (empty ▸ perm).eq_nil
    rw [optimize_of_nil empty, optimize_of_nil emptyToo]
    exact ⟨rfl, nofun⟩
  · have nonempty : reordered.conditions ≠ [] := by
      rintro (rfl : others = [])
      exact empty perm.nil_eq.symm
    rw [optimize_of_all empty all, optimize_of_all nonempty all]
    cases done : mergeAll spec.conditions with
    | none =>
      have contradictory : mergeAll others = none := by
        rw [Option.eq_none_iff_forall_ne_some]
        intro merged doneToo
        obtain ⟨_, _, _, back⟩ := mergeAll_perm perm doneToo
        rw [done] at back
        contradiction
      simp only [reordered, contradictory, true_and]
      exact nofun
    | some merged =>
      obtain ⟨bounds, areWindows, rfl, doneToo⟩ := mergeAll_perm perm.symm done
      simp only [reordered, doneToo, true_and]
      exact fun _ => ⟨bounds, areWindows, rfl, rfl, kept_perm perm⟩

/-- Lengths that are bounded before and after a pattern are bounded alike from back to front. -/
theorem optimize_perm_reversed :
    let conditions : List Condition := [.ofRange .length 2 9, .ofText .patternMatch "??t",
      .ofText .includesLetters "ca", .ofRange .length 3 5]
    (allOf conditions).optimize.2 = .normal ∧
      (allOf conditions.reverse).optimize.2 = (allOf conditions).optimize.2 ∧
      ∃ bounds, (∀ c ∈ bounds, c.kind.isWindow = true) ∧
        (allOf conditions).optimize.1 = allOf (bounds ++ kept conditions) ∧
        (allOf conditions.reverse).optimize.1 = allOf (bounds ++ kept conditions.reverse) ∧
        (kept conditions.reverse).Perm (kept conditions) := by
  intro conditions
  have normal : (allOf conditions).optimize.2 = .normal := by cbv
  obtain ⟨same, bounded⟩ := optimize_perm (show (allOf conditions).conjunction = true from rfl)
    conditions.reverse_perm
  exact ⟨normal, same, bounded normal⟩

end SearchSpec

end WordFinder
