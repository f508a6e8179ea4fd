import Mathlib
import WordFinder.Proofs.SavedSearch.WrittenCondition

/-!
# Saved searches read back

A search of the current version is read back from its document as it was saved, if its conditions set
only what their kinds read and need no text that is missing.
-/
set_option autoImplicit false

namespace WordFinder

open SavedSearch

namespace SearchSpec

/-- What is left of a search that is written and read: the first condition that lacks a text is an
error, and no condition keeps what its kind does not read. -/
def readBack (spec : SearchSpec) : Except SavedSearchError SearchSpec :=
  match spec.conditions.find? Condition.lacksText with
  | some c => .error (.emptyString c.kind.name)
  | none =>
    .ok { conditions := spec.conditions.map Condition.payloadOnly, conjunction := spec.conjunction }

theorem mapM_readCondition (conditions : List Condition) :
    (conditions.map Condition.element).mapM readCondition =
      match conditions.find? Condition.lacksText with
      | some c => .error (.emptyString c.kind.name)
      | none => .ok (conditions.map fun c => c.payloadOnly.current) := by
  induction conditions with
  | nil => rfl
  | cons c conditions ih =>
    rw [List.map_cons, List.mapM_cons, c.readCondition_element, ih]
    by_cases lacks : c.lacksText = true
    · rw [if_pos lacks, List.find?_cons_of_pos lacks]
      rfl
    · rw [if_neg lacks, List.find?_cons_of_neg lacks]
      cases conditions.find? Condition.lacksText <;> rfl

theorem find?_lacksText_of_text {conditions : List Condition}
    (text : ∀ c ∈ conditions, c.lacksText = false) :
    conditions.find? Condition.lacksText = none := by
  rw [List.find?_eq_none]
  intro c member
  simp [text c member]

theorem readSearch_element_eq (spec : SearchSpec) :
    readSearch spec.element =
      (spec.conditions.map Condition.element).mapM readCondition >>= fun conditions =>
        if conditions.isEmpty then .error .noConditions
        else .ok { conditions, conjunction := spec.conjunction } := by
  have join : readJoin ⟨joinName spec.conjunction, [], spec.conditions.map Condition.element⟩ =
      .ok spec.conjunction := by
    cases spec.conjunction <;> rfl
  have listName (children : List Xml.Element) :
      expectName ⟨conditionsName, [], children⟩ conditionsName = .ok () := rfl
  simp only [readSearch, bind, Except.bind, element, firstChild, listName, join]
  cases (spec.conditions.map Condition.element).mapM readCondition with
  | error e => rfl
  | ok conditions => cases conditions <;> rfl

theorem readSearch_element {spec : SearchSpec} (nonempty : spec.conditions ≠ [])
    (current : ∀ c ∈ spec.conditions, c.namesRetiredGroup = false) :
    readSearch spec.element = spec.readBack := by
  have someCondition : (spec.conditions.map Condition.payloadOnly).isEmpty = false := by
    simpa using nonempty
  have unchanged : (spec.conditions.map fun c => c.payloadOnly.current) =
      spec.conditions.map Condition.payloadOnly := by
    refine List.map_congr_left fun c member => Condition.current_eq_self ?_
    rw [Condition.namesRetiredGroup_payloadOnly, current c member]
  rw [readSearch_element_eq, mapM_readCondition, unchanged, readBack]
  cases spec.conditions.find? Condition.lacksText with
  | some c => rfl
  | none =>
    simp only [bind, Except.bind, someCondition]
    rfl

theorem ofXml_xml_eq_readSearch {spec : SearchSpec} (nonempty : spec.conditions ≠ []) :
    SearchSpec.ofXml spec.xml =
      if spec.conditions.all Condition.isWritable then readSearch spec.element
      else .error .notXml := by
  rw [SearchSpec.ofXml, elementOfXml, document?_xml nonempty]
  by_cases writable : spec.conditions.all Condition.isWritable = true
  · rw [if_pos writable, if_pos writable]
    rfl
  · rw [if_neg writable, if_neg writable]
    rfl

theorem ofXml_xml_eq {spec : SearchSpec} (nonempty : spec.conditions ≠ [])
    (current : ∀ c ∈ spec.conditions, c.namesRetiredGroup = false) :
    SearchSpec.ofXml spec.xml =
      if spec.conditions.all Condition.isWritable then spec.readBack else .error .notXml := by
  rw [ofXml_xml_eq_readSearch nonempty, readSearch_element nonempty current]

theorem ofXml_xml_of_text {spec : SearchSpec} (nonempty : spec.conditions ≠ [])
    (writable : spec.conditions.all Condition.isWritable = true)
    (text : ∀ c ∈ spec.conditions, c.lacksText = false) :
    SearchSpec.ofXml spec.xml =
      .ok { conditions := spec.conditions.map fun c => c.payloadOnly.current
            conjunction := spec.conjunction } := by
  have someCondition : (spec.conditions.map fun c => c.payloadOnly.current).isEmpty = false := by
    simpa using nonempty
  rw [ofXml_xml_eq_readSearch nonempty, if_pos writable, readSearch_element_eq, mapM_readCondition,
    find?_lacksText_of_text text]
  simp only [bind, Except.bind, someCondition]
  rfl

theorem readBack_of_text {spec : SearchSpec} (text : ∀ c ∈ spec.conditions, c.lacksText = false) :
    spec.readBack =
      .ok { conditions := spec.conditions.map Condition.payloadOnly
            conjunction := spec.conjunction } := by
  rw [readBack, find?_lacksText_of_text text]

theorem eq_of_readBack {spec again : SearchSpec} (read : spec.readBack = .ok again) :
    (∀ c ∈ spec.conditions, c.lacksText = false) ∧
      again.conditions = spec.conditions.map Condition.payloadOnly ∧
        again.conjunction = spec.conjunction := by
  rw [readBack] at read
  split at read
  · exact absurd read (by simp)
  · next texts =>
    rw [← Except.ok.inj read]
    refine ⟨?_, rfl, rfl⟩
    intro c member
    simpa using List.find?_eq_none.mp texts c member

end SearchSpec

/-- A condition that a saved search expresses as a whole. -/
structure Condition.IsSavable (c : Condition) : Prop where
  payloadOnly : c.payloadOnly = c
  text : c.lacksText = false
  current : c.namesRetiredGroup = false
  legal : c.string.toList.all Xml.isChar = true

instance (c : Condition) : Decidable c.IsSavable :=
  decidable_of_iff
    (c.payloadOnly = c ∧ c.lacksText = false ∧ c.namesRetiredGroup = false ∧
      c.string.toList.all Xml.isChar = true)
    ⟨fun ⟨payloadOnly, text, current, legal⟩ => ⟨payloadOnly, text, current, legal⟩,
      fun savable => ⟨savable.payloadOnly, savable.text, savable.current, savable.legal⟩⟩

theorem Condition.IsSavable.isWritable {c : Condition} (savable : c.IsSavable) :
    c.isWritable = true := by
  rw [isWritable_iff (by rw [savable.payloadOnly]), savable.legal]

/-- Saving a search and reading it back gives the same search. -/
theorem SearchSpec.ofXml_xml (spec : SearchSpec) (version : spec.version = currentVersion)
    (nonempty : spec.conditions ≠ []) (savable : ∀ c ∈ spec.conditions, c.IsSavable) :
    SearchSpec.ofXml spec.xml = .ok spec := by
  have writable : spec.conditions.all Condition.isWritable = true :=
    List.all_eq_true.mpr fun c member => (savable c member).isWritable
  have kept : spec.conditions.map Condition.payloadOnly = spec.conditions := by
    rw [List.map_congr_left fun c member => (savable c member).payloadOnly, List.map_id']
  rw [ofXml_xml_eq nonempty fun c member => (savable c member).current, if_pos writable,
    readBack_of_text fun c member => (savable c member).text, kept, ← version]

/-- Marks, line breaks and tabs of a text and the least number are kept. -/
theorem SearchSpec.ofXml_xml_marks :
    SearchSpec.ofXml (SearchSpec.xml
        { conditions := [{ kind := .definition, string := "<a & \"b\">\n\t'c'", negated := true },
            { kind := .probabilityOrder, min := -2147483648, max := 7, blanks := 2, lax := true }],
          conjunction := false }) =
      .ok { conditions := [{ kind := .definition, string := "<a & \"b\">\n\t'c'", negated := true },
              { kind := .probabilityOrder, min := -2147483648, max := 7, blanks := 2, lax := true }],
            conjunction := false } :=
  SearchSpec.ofXml_xml _ rfl (by decide) (by decide)

end WordFinder
