import Mathlib
import WordFinder.Proofs.SavedSearch.WrittenCondition

/-!
# Retired names of negated conditions

A condition under a retired name that stands for the negated form of a kind is read like one under the
name of the kind that is marked as negated, whatever else the two elements say. There is one exception:
under the retired name the text may be empty.
-/
set_option autoImplicit false

namespace WordFinder.SavedSearch

/-- Whether two readings come out alike: with the same condition, or with the same kind of error. -/
def ComeOutAlike :
    Except SavedSearchError Condition → Except SavedSearchError Condition → Prop
  | .ok c, .ok d => c = d
  | .error cause, .error other => cause.ctorIdx = other.ctorIdx
  | _, _ => False

variable {name : String} {kind : ConditionKind} {e : Xml.Element}

theorem mem_retiredNames_of_lookup {retired : RetiredName}
    (found : retiredNames.lookup name = some retired) : (name, retired) ∈ retiredNames := by
  obtain ⟨before, after, split, _⟩ := List.lookup_eq_some_iff.mp found
  simp [split]

theorem ofName?_of_lookup {retired : RetiredName}
    (found : retiredNames.lookup name = some retired) : ConditionKind.ofName? name = none := by
  have every : retiredNames.all (fun entry => (ConditionKind.ofName? entry.1).isNone) = true := by
    decide +kernel
  have here := List.all_eq_true.mp every _ (mem_retiredNames_of_lookup found)
  exact Option.isNone_iff_eq_none.mp here

/-- A kind that carries a text, which is read as it stands and may not be empty. -/
structure NeedsText (kind : ConditionKind) : Prop where
  payload : kind.payload = .text
  noMatch : kind.isMatch = false
  noGroup : kind ≠ .belongsToGroup

theorem needsText_of_lookup (found : retiredNames.lookup name = some (.negated kind)) :
    NeedsText kind := by
  have every : ∀ entry ∈ retiredNames, ∀ kind, entry.2 = .negated kind →
      kind.payload = .text ∧ kind.isMatch = false ∧ kind ≠ .belongsToGroup := by
    simp [retiredNames, ConditionKind.payload, ConditionKind.isMatch]
  obtain ⟨payload, noMatch, noGroup⟩ := every _ (mem_retiredNames_of_lookup found) kind rfl
  exact ⟨payload, noMatch, noGroup⟩

theorem readCondition_of_other_name (other : e.name ≠ conditionName) :
    readCondition e = .error (.unexpectedElement conditionName e.name) := by
  simp only [readCondition, expectName, if_neg other, bind, Except.bind]

theorem readCondition_of_retired (named : e.name = conditionName)
    (typed : e.attribute? "type" = some name)
    (retired : retiredNames.lookup name = some (.negated kind)) :
    readCondition e =
      (required e "string" name).map fun string => { kind, string, negated := true } := by
  have expected : expectName e conditionName = .ok () := by rw [expectName, if_pos named]
  have type : required e "type" "" = .ok name := by rw [required, typed]
  simp only [readCondition, expected, type, ofName?_of_lookup retired, retired, bind, Except.bind,
    readRetired]
  cases required e "string" name with
  | error cause => rfl
  | ok string => rfl

theorem readCondition_of_negated (named : e.name = conditionName)
    (typed : e.attribute? "type" = some kind.name) (needsText : NeedsText kind)
    (marked : e.attribute? "negated" = some "1") :
    readCondition e =
      (required e "string" kind.name).bind fun string =>
        if string = "" then .error (.emptyString kind.name)
        else .ok { kind, string, negated := true } := by
  have expected : expectName e conditionName = .ok () := by rw [expectName, if_pos named]
  have type : required e "type" "" = .ok kind.name := by rw [required, typed]
  have negated : readNegated e = true := by
    rw [readNegated, marked]
    rfl
  simp only [readCondition, expected, type, Condition.ofName?_name, bind, Except.bind, readKind,
    needsText.payload, readText, negated, needsText.noMatch, needsText.noGroup, if_false]
  cases required e "string" kind.name with
  | error cause => rfl
  | ok string =>
    by_cases missing : string = ""
    · rw [missing]
      rfl
    · simp only [missing, String.isEmpty_iff, Bool.not_false, Bool.true_and, if_false]
      rfl

/-- A retired name for a negated condition is read like the name of its kind with the mark of negation,
whatever else the two elements say, unless the text is given and empty: only the retired name takes
it. -/
theorem comeOutAlike_retired_iff {old new : Xml.Element} (sameName : old.name = new.name)
    (retired : retiredNames.lookup name = some (.negated kind))
    (oldType : old.attribute? "type" = some name)
    (newType : new.attribute? "type" = some kind.name)
    (sameText : old.attribute? "string" = new.attribute? "string")
    (marked : new.attribute? "negated" = some "1") :
    kind.payload = .text ∧
      (ComeOutAlike (readCondition old) (readCondition new) ↔
        ¬(old.name = conditionName ∧ old.attribute? "string" = some "")) ∧
      ∀ string, old.name = conditionName → old.attribute? "string" = some string →
        readCondition old = .ok { kind, string, negated := true } ∧
          (string = "" → readCondition new = .error (.emptyString kind.name)) := by
  have needsText := needsText_of_lookup retired
  refine ⟨needsText.payload, ?_⟩
  by_cases named : old.name = conditionName
  · have readOld := readCondition_of_retired named oldType retired
    have readNew := readCondition_of_negated (sameName ▸ named) newType needsText marked
    rw [required] at readOld readNew
    rw [← sameText] at readNew
    cases given : old.attribute? "string" with
    | none =>
      -- both readings miss the attribute
      rw [given] at readOld readNew
      rw [readOld, readNew]
      refine ⟨iff_of_true rfl fun missing => ?_, fun string _ never => ?_⟩
      · exact Option.some_ne_none _ missing.2.symm
      · exact absurd never.symm (Option.some_ne_none string)
    | some string =>
      rw [given] at readOld readNew
      rw [readOld, readNew]
      simp only [Except.map, Except.bind, named, Option.some.injEq, true_and]
      refine ⟨?_, fun other _ same => ?_⟩
      · by_cases missing : string = ""
        · simp [ComeOutAlike, missing]
        · simp [ComeOutAlike, missing]
      · subst same
        exact ⟨rfl, fun missing => if_pos missing⟩
  · rw [readCondition_of_other_name named, readCondition_of_other_name (sameName ▸ named)]
    exact ⟨iff_of_true rfl fun both => named both.1, fun _ same => absurd same named⟩

/-- Elements that differ in the order of their attributes and in a mark that a retired name does not
read. -/
theorem comeOutAlike_retired_exclude :
    let old : Xml.Element :=
      ⟨"condition", [("negated", "0"), ("type", "Must Exclude"), ("string", "QZ")], []⟩
    let new : Xml.Element :=
      ⟨"condition", [("type", "Includes Letters"), ("string", "QZ"), ("negated", "1")], []⟩
    retiredNames.lookup "Must Exclude" = some (.negated .includesLetters) ∧
      ComeOutAlike (readCondition old) (readCondition new) ∧
      readCondition old = .ok { kind := .includesLetters, string := "QZ", negated := true } := by
  intro old new
  have retired : retiredNames.lookup "Must Exclude" = some (.negated .includesLetters) := rfl
  obtain ⟨_, alike_iff, taken⟩ :=
    comeOutAlike_retired_iff (show old.name = new.name from rfl) retired rfl rfl rfl rfl
  refine ⟨retired, alike_iff.mpr ?_, (taken "QZ" rfl rfl).1⟩
  intro missing
  exact absurd missing.2 (by decide)

/-- The empty text is taken under a retired name and refused under the name of the kind. -/
theorem not_comeOutAlike_retired_empty :
    Condition.ofXml "<condition type=\"Does Not Take Prefix\" string=\"\"/>" =
        .ok { kind := .takesPrefix, string := "", negated := true } ∧
      Condition.ofXml "<condition type=\"Takes Prefix\" string=\"\" negated=\"1\"/>" =
        .error (.emptyString "Takes Prefix") := by
  decide +kernel

end WordFinder.SavedSearch
