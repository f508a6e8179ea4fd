import Mathlib
import WordFinder.Proofs.SavedSearch.Document
import WordFinder.SavedSearch.Reader

/-!
# Conditions read back

What reading the element of a condition gives. Each payload is written in attributes that its reader
looks up by name; what the kind does not read is lost, and a text that the kind needs is missed if it
is empty.
-/
set_option autoImplicit false

namespace WordFinder

open SavedSearch

namespace Condition

/-- The condition with the values that its kind reads and with the defaults for all others. -/
def payloadOnly (c : Condition) : Condition :=
  match c.kind.payload with
  | .text => { kind := c.kind, string := c.string, negated := c.negated }
  | .range => { kind := c.kind, min := c.min, max := c.max }
  | .probability => { kind := c.kind, min := c.min, max := c.max, blanks := c.blanks }
  | .order => { kind := c.kind, min := c.min, max := c.max, blanks := c.blanks, lax := c.lax }
  | .percentage => { kind := c.kind, string := c.string, min := c.min, max := c.max }

/-- Whether the kind needs a text and the condition has none. -/
def lacksText (c : Condition) : Bool :=
  c.kind.payload = .text && !c.kind.isMatch && c.string.isEmpty

def namesRetiredGroup (c : Condition) : Bool :=
  c.kind = .belongsToGroup && (retiredGroups.lookup c.string).isSome

def current (c : Condition) : Condition :=
  if c.kind = .belongsToGroup then replaceRetiredGroup c else c

theorem current_eq_self {c : Condition} (current : c.namesRetiredGroup = false) : c.current = c := by
  rw [Condition.current]
  split
  · next group =>
    have unretired : retiredGroups.lookup c.string = none := by
      simpa [namesRetiredGroup, group] using current
    rw [replaceRetiredGroup, unretired]
  · rfl

theorem namesRetiredGroup_payloadOnly (c : Condition) :
    c.payloadOnly.namesRetiredGroup = c.namesRetiredGroup := by
  rw [namesRetiredGroup, namesRetiredGroup, payloadOnly]
  cases kind : c.kind <;> simp [ConditionKind.payload]

theorem isEmpty_current (c : Condition) : c.current.string.isEmpty = c.string.isEmpty := by
  have names : ∀ entry ∈ retiredGroups, entry.1.isEmpty = false ∧ entry.2.isEmpty = false := by
    decide
  rw [current]
  split
  · rw [replaceRetiredGroup]
    cases retired : retiredGroups.lookup c.string with
    | none => rfl
    | some lexicon =>
      obtain ⟨before, after, split, _⟩ := List.lookup_eq_some_iff.mp retired
      have listed : (c.string, lexicon) ∈ retiredGroups := by simp [split]
      obtain ⟨group, replaced⟩ := names _ listed
      exact replaced.trans group.symm
  · rfl

theorem attribute?_element (c : Condition) (name : String) :
    c.element.attribute? name = c.attributes.lookup name := rfl

theorem readNumber_numberText (attr : String) (n : Int32) :
    readNumber attr (numberText n) = .ok n := by
  rw [readNumber, int32?_numberText]

theorem requiredNumber_element {c : Condition} {attr : String} {n : Int32}
    (written : c.attributes.lookup attr = some (numberText n)) (type : String) :
    requiredNumber c.element attr type = .ok n := by
  simp only [requiredNumber, required, attribute?_element, written, bind, Except.bind,
    readNumber_numberText]

theorem readBlanks_element {c : Condition}
    (written : c.attributes.lookup "int" = some (numberText c.blanks)) :
    readBlanks c.element = .ok c.blanks := by
  rw [readBlanks, attribute?_element, written]
  exact readNumber_numberText "int" c.blanks

/-- A range is read into whatever was read of the condition before. -/
theorem readRange_element {c : Condition}
    (min : c.attributes.lookup "min" = some (numberText c.min))
    (max : c.attributes.lookup "max" = some (numberText c.max)) (before : Condition)
    (type : String) :
    readRange c.element before type = .ok { before with min := c.min, max := c.max } := by
  simp only [readRange, requiredNumber_element min, requiredNumber_element max, bind, Except.bind]
  rfl

theorem ofName?_name (kind : ConditionKind) : ConditionKind.ofName? kind.name = some kind := by
  cases kind <;> decide

theorem readText_element {c : Condition} (payload : c.kind.payload = .text) :
    readText c.element c.kind c.kind.name =
      if c.lacksText then .error (.emptyString c.kind.name) else .ok c.payloadOnly.current := by
  have attributes : c.attributes = [("type", c.kind.name), ("string", c.string),
      ("negated", if c.negated then "1" else "0")] := by
    rw [Condition.attributes, payloadAttributes, payload]
  have string : required c.element "string" c.kind.name = .ok c.string := by
    rw [required, attribute?_element, attributes]
    rfl
  have negated : readNegated c.element = c.negated := by
    rw [readNegated, attribute?_element, attributes]
    cases c.negated <;> rfl
  have values : c.payloadOnly = { kind := c.kind, string := c.string, negated := c.negated } := by
    rw [payloadOnly, payload]
  have kept : (if c.kind = .belongsToGroup then
        replaceRetiredGroup { kind := c.kind, string := c.string, negated := c.negated }
      else { kind := c.kind, string := c.string, negated := c.negated }) = c.payloadOnly.current := by
    rw [values, current]
  have sameString : c.payloadOnly.current.string.isEmpty = c.string.isEmpty := by
    rw [isEmpty_current, values]
  simp only [readText, string, negated, kept, sameString, lacksText, payload, decide_true,
    Bool.true_and, bind, Except.bind]
  split <;> rfl

theorem readPercentage_element {c : Condition} (payload : c.kind.payload = .percentage) :
    readPercentage c.element c.kind c.kind.name = .ok c.payloadOnly := by
  have attributes : c.attributes = [("type", c.kind.name), ("min", numberText c.min),
      ("max", numberText c.max), ("string", c.string)] := by
    rw [Condition.attributes, payloadAttributes, payload]
  have string : required c.element "string" c.kind.name = .ok c.string := by
    rw [required, attribute?_element, attributes]
    rfl
  have noPercent : c.element.attribute? "percent" = none := by
    rw [attribute?_element, attributes]
    rfl
  have range := readRange_element (c := c) (by rw [attributes]; rfl) (by rw [attributes]; rfl)
  rw [payloadOnly, payload]
  simp only [readPercentage, string, noPercent, range, bind, Except.bind, Option.bind]

theorem readOrder_element {c : Condition} (payload : c.kind.payload = .order) :
    (do
      let blanks ← readBlanks c.element
      readRange c.element
        { kind := c.kind, blanks, lax := c.element.attribute? "bool" == some "true" } c.kind.name) =
      .ok c.payloadOnly := by
  have attributes : c.attributes = [("type", c.kind.name), ("int", numberText c.blanks),
      ("bool", if c.lax then "true" else "false"), ("min", numberText c.min),
      ("max", numberText c.max)] := by
    rw [Condition.attributes, payloadAttributes, payload]
  have range := readRange_element (c := c) (by rw [attributes]; rfl) (by rw [attributes]; rfl)
  have blanks := readBlanks_element (c := c) (by rw [attributes]; rfl)
  have lax : (c.element.attribute? "bool" == some "true") = c.lax := by
    rw [attribute?_element, attributes]
    cases c.lax <;> rfl
  rw [payloadOnly, payload]
  simp only [blanks, range, lax, bind, Except.bind]

theorem readProbability_element {c : Condition} (payload : c.kind.payload = .probability) :
    (do
      let read ← readRange c.element { kind := c.kind } c.kind.name
      return { read with blanks := ← readBlanks c.element }) = Except.ok c.payloadOnly := by
  have attributes : c.attributes = [("type", c.kind.name), ("min", numberText c.min),
      ("max", numberText c.max), ("int", numberText c.blanks)] := by
    rw [Condition.attributes, payloadAttributes, payload]
  have range := readRange_element (c := c) (by rw [attributes]; rfl) (by rw [attributes]; rfl)
  have blanks := readBlanks_element (c := c) (by rw [attributes]; rfl)
  rw [payloadOnly, payload]
  simp only [blanks, range, bind, Except.bind]
  rfl

theorem readOnlyRange_element {c : Condition} (payload : c.kind.payload = .range) :
    readRange c.element { kind := c.kind } c.kind.name = .ok c.payloadOnly := by
  have attributes : c.attributes = [("type", c.kind.name), ("min", numberText c.min),
      ("max", numberText c.max)] := by
    rw [Condition.attributes, payloadAttributes, payload]
  rw [payloadOnly, payload]
  exact readRange_element (by rw [attributes]; rfl) (by rw [attributes]; rfl) _ _

/-- A condition is read back up to what its kind does not read and to a retired group, or its missing
text is reported. -/
theorem readCondition_element (c : Condition) :
    readCondition c.element =
      if c.lacksText then .error (.emptyString c.kind.name) else .ok c.payloadOnly.current := by
  have type : required c.element "type" "" = .ok c.kind.name := rfl
  have name : expectName c.element conditionName = .ok () := rfl
  simp only [readCondition, name, type, ofName?_name, bind, Except.bind, readKind]
  by_cases text : c.kind.payload = .text
  · rw [text]
    exact readText_element text
  · have needsNone : c.lacksText = false := by simp [lacksText, text]
    have noGroup : c.payloadOnly.namesRetiredGroup = false := by
      rw [namesRetiredGroup_payloadOnly, namesRetiredGroup]
      cases kind : c.kind <;> simp_all [ConditionKind.payload]
    rw [needsNone, if_neg (by decide), current_eq_self noGroup]
    cases payload : c.kind.payload with
    | text => exact absurd payload text
    | range => exact readOnlyRange_element payload
    | probability => exact readProbability_element payload
    | order => exact readOrder_element payload
    | percentage => exact readPercentage_element payload

/-! ## Values that a document may hold -/

theorem isChar_of_numeral {n : Int32} {x : Char} (member : x ∈ (numberText n).toList) :
    Xml.isChar x = true := by
  rcases numeral_of_mem_numberText member with rfl | digit
  · decide
  · obtain ⟨low, high⟩ := Text.toNat_of_isDigit digit
    simp only [Xml.isChar, Bool.or_eq_true, Bool.and_eq_true, decide_eq_true_eq, bne_iff_ne]
    omega

theorem all_isChar_numberText (n : Int32) : (numberText n).toList.all Xml.isChar = true :=
  List.all_eq_true.mpr fun _ member => isChar_of_numeral member

theorem all_isChar_name (kind : ConditionKind) : kind.name.toList.all Xml.isChar = true := by
  cases kind <;> decide

theorem isWritable_iff {c : Condition} (unread : c.payloadOnly.string = c.string) :
    c.isWritable = c.string.toList.all Xml.isChar := by
  have negated : (if c.negated then "1" else "0").toList.all Xml.isChar = true := by
    cases c.negated <;> decide
  have lax : (if c.lax then "true" else "false").toList.all Xml.isChar = true := by
    cases c.lax <;> decide
  have none : "".toList.all Xml.isChar = true := by decide
  have attributeTexts : c.isWritable =
      c.payloadAttributes.all fun a => a.2.toList.all Xml.isChar := by
    rw [isWritable, attributes, List.all_cons, all_isChar_name, Bool.true_and]
  rw [attributeTexts, payloadAttributes]
  cases payload : c.kind.payload with
  | text => simp only [List.all_cons, List.all_nil, negated, Bool.and_true]
  | percentage =>
    simp only [List.all_cons, List.all_nil, all_isChar_numberText, Bool.true_and, Bool.and_true]
  | range =>
    simp only [payloadOnly, payload] at unread
    simp only [← unread, none, List.all_cons, List.all_nil, all_isChar_numberText, Bool.true_and]
  | probability =>
    simp only [payloadOnly, payload] at unread
    simp only [← unread, none, List.all_cons, List.all_nil, all_isChar_numberText, Bool.true_and]
  | order =>
    simp only [payloadOnly, payload] at unread
    simp only [← unread, none, List.all_cons, List.all_nil, all_isChar_numberText, lax,
      Bool.true_and]

end Condition

end WordFinder
