import Mathlib
import WordFinder.Proofs.Text.Numeral
import WordFinder.Proofs.Xml.WrittenOutline
import WordFinder.SavedSearch.Writer
import WordFinder.Xml.Document

/-!
# The document of a saved search

A written search is a document with one element, unless a value holds a character that a document
may not hold; then it is no document at all.
-/
set_option autoImplicit false

namespace WordFinder

open Xml SavedSearch

theorem isPlainName_conditionName : IsPlainName conditionName := by decide

namespace Condition

def attributes (c : Condition) : List (String × String) :=
  ("type", c.kind.name) :: c.payloadAttributes

def element (c : Condition) : Element :=
  ⟨conditionName, c.attributes, []⟩

def tag (c : Condition) : StartTag :=
  ⟨⟨"", conditionName⟩, c.attributes.map escapedAttribute, .empty⟩

/-- Whether a document may hold every character of the values that are written. -/
def isWritable (c : Condition) : Bool :=
  c.attributes.all fun a => a.2.toList.all isChar

def payloadNames : Payload → List String
  | .text => ["string", "negated"]
  | .range => ["min", "max"]
  | .probability => ["min", "max", "int"]
  | .order => ["int", "bool", "min", "max"]
  | .percentage => ["min", "max", "string"]

theorem names_attributes (c : Condition) :
    c.attributes.map Prod.fst = "type" :: payloadNames c.kind.payload := by
  rw [attributes, List.map_cons, payloadAttributes]
  cases c.kind.payload <;> rfl

theorem arePlain_attributes (c : Condition) : ArePlain c.attributes := by
  apply arePlain_of_names
  · rw [names_attributes]
    cases c.kind.payload <;> decide
  · rw [names_attributes]
    cases c.kind.payload <;> decide
  · rw [names_attributes]
    cases c.kind.payload <;> decide

theorem toList_join_attributeText (attributes : List (String × String)) :
    (String.join (attributes.map attributeText)).toList =
      (attributes.map escapedAttribute).flatMap WrittenAttribute.chars := by
  induction attributes with
  | nil => rfl
  | cons a attributes ih =>
    rw [List.map_cons, String.join_cons, String.toList_append, ih, List.map_cons, List.flatMap_cons,
      chars_escapedAttribute]

theorem chars_tag (c : Condition) : c.tag.chars = c.xml.toList := by
  have joined := toList_join_attributeText c.attributes
  simp only [tag, StartTag.chars, xml, emptyTag, String.toList_append]
  rw [show ("type", c.kind.name) :: c.payloadAttributes = c.attributes from rfl, joined]
  simp [TagEnding.chars]

theorem isPlain_tag (c : Condition) : c.tag.IsPlain where
  noPrefix := rfl
  name := isPlainName_conditionName
  attributes := by
    intro a member
    obtain ⟨attr, attrMember, rfl⟩ := List.mem_map.mp member
    exact isPlain_escapedAttribute (c.arePlain_attributes.names attr attrMember)
  complete := by simp [tag]

theorem isLegal_tag (c : Condition) : c.tag.isLegal = c.isWritable := by
  simp only [StartTag.isLegal, tag, List.all_map, isWritable, Function.comp_def,
    isLegal_escapedAttribute]

end Condition

/-! ## Searches -/

theorem isPlainName_topName : IsPlainName topName := by decide

theorem isPlainName_conditionsName : IsPlainName conditionsName := by decide

theorem isPlainName_joinName (conjunction : Bool) : IsPlainName (joinName conjunction) := by
  cases conjunction <;> decide

def openingTag (name : String) (attributes : List (String × String)) : StartTag :=
  ⟨⟨"", name⟩, attributes.map escapedAttribute, .content⟩

theorem isPlain_openingTag {name : String} (plainName : IsPlainName name)
    {attributes : List (String × String)} (plain : ArePlain attributes) :
    (openingTag name attributes).IsPlain where
  noPrefix := rfl
  name := plainName
  attributes := by
    intro a member
    obtain ⟨attr, attrMember, rfl⟩ := List.mem_map.mp member
    exact isPlain_escapedAttribute (plain.names attr attrMember)
  complete := by simp [openingTag]

theorem arePlain_nil : ArePlain [] :=
  ⟨by simp, by simp, List.nodup_nil⟩

def lineBreak (indent : Nat) : Markup :=
  .text ('\n' :: List.replicate indent ' ')

theorem isPlain_lineBreak (indent : Nat) : (lineBreak indent).IsPlain := by
  refine ⟨List.cons_ne_nil _ _, ?_⟩
  intro c member
  rcases List.mem_cons.mp member with rfl | space
  · decide
  · rw [List.eq_of_mem_replicate space]
    decide

namespace SearchSpec

def versionAttributes : List (String × String) :=
  [("version", toString currentVersion)]

theorem arePlain_versionAttributes : ArePlain versionAttributes :=
  arePlain_of_names (by decide) (by decide) (by decide)

def element (spec : SearchSpec) : Element :=
  ⟨topName, versionAttributes,
    [⟨conditionsName, [],
      [⟨joinName spec.conjunction, [], spec.conditions.map Condition.element⟩]⟩]⟩

def lines (conditions : List Condition) : List Markup :=
  conditions.flatMap fun c => [lineBreak 6, .startTag c.tag]

def closing (conjunction : Bool) : List Markup :=
  [lineBreak 4, .endTag ⟨"", joinName conjunction⟩, lineBreak 2, .endTag ⟨"", conditionsName⟩,
    lineBreak 0, .endTag ⟨"", topName⟩]

def inside (spec : SearchSpec) : List Markup :=
  [lineBreak 2, .startTag (openingTag conditionsName []), lineBreak 4,
    .startTag (openingTag (joinName spec.conjunction) [])] ++
    (lines spec.conditions ++ closing spec.conjunction)

theorem chars_lines_cons (c : Condition) (conditions : List Condition) :
    (lines (c :: conditions)).flatMap Markup.chars =
      '\n' :: ("      ".toList ++ (c.xml.toList ++ (lines conditions).flatMap Markup.chars)) := by
  simp [lines, lineBreak, Markup.chars, c.chars_tag, List.replicate_succ]

theorem chars_lines (conditions : List Condition) (rest : List Char) :
    (lines conditions).flatMap Markup.chars ++ '\n' :: rest =
      '\n' :: ((String.join (conditions.map fun c => "      " ++ c.xml ++ "\n")).toList ++ rest) := by
  induction conditions with
  | nil => rfl
  | cons c conditions ih =>
    rw [List.map_cons, String.join_cons, String.toList_append, String.toList_append,
      String.toList_append, List.append_assoc, List.append_assoc, List.append_assoc,
      show "\n".toList = ['\n'] from rfl, List.singleton_append, ← ih, chars_lines_cons,
      List.cons_append, List.append_assoc, List.append_assoc]

theorem chars_closing (conjunction : Bool) :
    (closing conjunction).flatMap Markup.chars =
      '\n' :: ("    </".toList ++ ((joinName conjunction).toList ++ (">\n  </".toList ++
        (conditionsName.toList ++ (">\n</".toList ++ (topName.toList ++ ">".toList)))))) := by
  simp [closing, lineBreak, Markup.chars, endTagChars, List.replicate_succ]

theorem chars_inside {spec : SearchSpec} (nonempty : spec.conditions ≠ []) :
    (openingTag topName versionAttributes).chars ++ spec.inside.flatMap Markup.chars =
      spec.xmlElement.toList := by
  have someCondition : spec.conditions.isEmpty = false := List.isEmpty_eq_false_iff.mpr nonempty
  have top : (openingTag topName versionAttributes).chars =
      "<".toList ++ (topName.toList ++ (" version=\"".toList ++ ((toString currentVersion).toList ++
        ("\"".toList ++ ">".toList)))) := rfl
  rw [inside, List.flatMap_append, List.flatMap_append, chars_closing, chars_lines, top, xmlElement,
    someCondition]
  simp [openingTag, lineBreak, Markup.chars, StartTag.chars, TagEnding.chars, List.replicate_succ]

theorem isPlainContent_lines (conditions : List Condition) {rest : List Markup}
    (plain : IsPlainContent rest) : IsPlainContent (lines conditions ++ rest) := by
  induction conditions with
  | nil => exact plain
  | cons c conditions ih => exact ⟨isPlain_lineBreak 6, fun _ => rfl, c.isPlain_tag, nofun, ih⟩

theorem isPlainContent_closing (conjunction : Bool) : IsPlainContent (closing conjunction) :=
  ⟨isPlain_lineBreak 4, fun _ => rfl, ⟨rfl, isPlainName_joinName conjunction⟩, nofun,
    isPlain_lineBreak 2, fun _ => rfl, ⟨rfl, isPlainName_conditionsName⟩, nofun,
    isPlain_lineBreak 0, fun _ => rfl, ⟨rfl, isPlainName_topName⟩, nofun, trivial⟩

theorem isPlainContent_inside (spec : SearchSpec) : IsPlainContent spec.inside :=
  ⟨isPlain_lineBreak 2, fun _ => rfl,
    isPlain_openingTag isPlainName_conditionsName arePlain_nil, nofun,
    isPlain_lineBreak 4, fun _ => rfl,
    isPlain_openingTag (isPlainName_joinName spec.conjunction) arePlain_nil, nofun,
    isPlainContent_lines spec.conditions (isPlainContent_closing spec.conjunction)⟩

theorem closesAtEnd_lines (conditions : List Condition) {depth : Nat} {rest : List Markup}
    (opened : depth ≠ 0) (closes : ClosesAtEnd depth rest) :
    ClosesAtEnd depth (lines conditions ++ rest) := by
  induction conditions with
  | nil => exact closes
  | cons c conditions ih => exact ⟨opened, opened, ih⟩

theorem closesAtEnd_inside (spec : SearchSpec) : ClosesAtEnd 1 spec.inside := by
  have closes : ClosesAtEnd 3 (closing spec.conjunction) := by
    simp [closing, ClosesAtEnd, lineBreak, Markup.depthAfter]
  have closesLines := closesAtEnd_lines spec.conditions (by decide) closes
  exact ⟨by decide, by decide, by decide, by decide, closesLines⟩

theorem all_isLegal_inside (spec : SearchSpec) :
    spec.inside.all Markup.isLegal = spec.conditions.all Condition.isWritable := by
  have ofLines : (lines spec.conditions).all Markup.isLegal =
      spec.conditions.all Condition.isWritable := by
    simp [lines, List.all_flatMap, lineBreak, Markup.isLegal, Condition.isLegal_tag]
  rw [inside, List.all_append, List.all_append, ofLines]
  exact Bool.and_true _

/-! ## The outline of a written search -/

/-- The step by which the markup of a document without entities is read. -/
def addPiece? : Outline → Markup → Option Outline :=
  Outline.add? (valueAt [] maxEntityDepth)
    (Outline.addText? [] false
      (fun o text => do Outline.addAll? [] (maxEntityDepth - 1) o (← entityMarkup? text)) 0)

theorem addAll?_eq (o : Outline) (pieces : List Markup) :
    o.addAll? [] maxEntityDepth pieces = pieces.foldlM addPiece? o := rfl

theorem addPiece?_lineBreak (o : Outline) (indent : Nat) :
    addPiece? o (lineBreak indent) = some o :=
  Outline.addText?_spaces [] false _ o (isPlain_lineBreak indent).2

def openOutline (opened : List OpenElement) : Outline :=
  ⟨[], opened, {}, 0⟩

theorem bindings_openOutline_nil : (openOutline []).bindings = [] := rfl

theorem bindings_openOutline_cons (name : String) (attributes : List (String × String))
    (bindings : Bindings) (children : List Element) (outer : List OpenElement) :
    (openOutline (.ofTag name attributes bindings children :: outer)).bindings = bindings := rfl

theorem append_openOutline_cons (name : String) (attributes : List (String × String))
    (bindings : Bindings) (children : List Element) (outer : List OpenElement) (e : Element) :
    (openOutline (.ofTag name attributes bindings children :: outer)).append e =
      openOutline (.ofTag name attributes bindings (e :: children) :: outer) := rfl

theorem addPiece?_openingTag (opened : List OpenElement) (name : String)
    {attributes : List (String × String)} (plain : ArePlain attributes) :
    addPiece? (openOutline opened) (.startTag (openingTag name attributes)) =
      some (openOutline
        (.ofTag name attributes (openOutline opened).bindings [] :: opened)) :=
  Outline.addStartTag?_content [] [] opened 0 name plain

theorem addPiece?_tag (outer : List OpenElement) (name : String) (children : List Element)
    (c : Condition) :
    addPiece? (openOutline (.ofTag name [] [] children :: outer)) (.startTag c.tag) =
      some (openOutline (.ofTag name [] [] (c.element :: children) :: outer)) :=
  Outline.addStartTag?_empty [] [] _ 0 conditionName c.arePlain_attributes

theorem addPiece?_endTag (opened : List OpenElement) (name : String)
    (attributes : List (String × String)) (children : List Element) :
    addPiece? (openOutline (.ofTag name attributes [] children :: opened)) (.endTag ⟨"", name⟩) =
      some ((openOutline opened).append ⟨name, attributes, children.reverse⟩) :=
  Outline.addEndTag?_plain [] opened 0 name attributes [] children

theorem addPiece?_lines (outer : List OpenElement) (name : String) (conditions : List Condition)
    (children : List Element) :
    (lines conditions).foldlM addPiece? (openOutline (.ofTag name [] [] children :: outer)) =
      some (openOutline (.ofTag name [] []
        ((conditions.map Condition.element).reverse ++ children) :: outer)) := by
  induction conditions generalizing children with
  | nil => rfl
  | cons c conditions ih =>
    have split : lines (c :: conditions) = lineBreak 6 :: .startTag c.tag :: lines conditions := rfl
    rw [split, List.foldlM_cons, addPiece?_lineBreak, Option.bind_eq_bind, Option.bind_some,
      List.foldlM_cons, addPiece?_tag, Option.bind_eq_bind, Option.bind_some, ih, List.map_cons,
      List.reverse_cons, List.append_assoc, List.singleton_append]

theorem addPiece?_closing (conjunction : Bool) (children : List Element) :
    (closing conjunction).foldlM addPiece? (openOutline
        [.ofTag (joinName conjunction) [] [] children, .ofTag conditionsName [] [] [],
          .ofTag topName versionAttributes [] []]) =
      some ⟨[⟨topName, versionAttributes,
        [⟨conditionsName, [], [⟨joinName conjunction, [], children.reverse⟩]⟩]⟩], [], {}, 0⟩ := by
  simp only [closing, List.foldlM_cons, List.foldlM_nil, addPiece?_lineBreak, addPiece?_endTag,
    append_openOutline_cons, Option.bind_eq_bind, Option.bind_some, Option.pure_def,
    List.reverse_singleton]
  rfl

theorem addAll?_markup (spec : SearchSpec) :
    Outline.blank.addAll? [] maxEntityDepth
        (.startTag (openingTag topName versionAttributes) :: spec.inside) =
      some ⟨[spec.element], [], {}, 0⟩ := by
  have plain := arePlain_versionAttributes
  rw [addAll?_eq, show Outline.blank = openOutline [] from rfl, inside]
  simp only [List.foldlM_cons, List.foldlM_append, List.foldlM_nil, addPiece?_openingTag _ _ plain,
    addPiece?_openingTag _ _ arePlain_nil, addPiece?_lineBreak, bindings_openOutline_nil,
    bindings_openOutline_cons, addPiece?_lines, addPiece?_closing, Option.bind_eq_bind,
    Option.bind_some, Option.pure_def, List.append_nil, List.reverse_reverse]
  rfl

theorem elementMarkup?_xmlElement {spec : SearchSpec} (nonempty : spec.conditions ≠ [])
    (rest : List Char) :
    elementMarkup? (spec.xmlElement.toList ++ rest) =
      if spec.conditions.all Condition.isWritable then
        some (.startTag (openingTag topName versionAttributes) :: spec.inside, rest)
      else none := by
  have plain := isPlain_openingTag isPlainName_topName arePlain_versionAttributes
  have legal : (openingTag topName versionAttributes).isLegal = true := by decide
  have enough : spec.inside.length <
      (spec.inside.flatMap Markup.chars ++ rest).length + 1 := by
    have shorter := length_le_chars spec.isPlainContent_inside
    rw [List.length_append]
    omega
  have read := markupFrom_chars spec.isPlainContent_inside spec.closesAtEnd_inside enough rest
  have depth : Markup.depthAfter 0 (.startTag (openingTag topName versionAttributes)) = 1 := rfl
  rw [spec.all_isLegal_inside] at read
  rw [elementMarkup?, ← chars_inside nonempty, List.append_assoc, startTag?_chars plain, legal]
  simp only [if_true, Option.bind_eq_bind, Option.bind_some, depth, read]
  by_cases writable : spec.conditions.all Condition.isWritable = true
  · simp only [writable, if_true, Option.bind_some, Option.pure_def]
  · simp only [writable, if_false, Option.bind_none, Bool.false_eq_true]

def declarationLine : String :=
  "<?xml version=\"1.0\" encoding=\"UTF-8\"?>\n"

def documentTypeLine : String :=
  "<!DOCTYPE " ++ topName ++ " SYSTEM \"" ++ documentTypeUrl ++ "\">\n"

theorem toList_xml (spec : SearchSpec) :
    spec.xml.toList = declarationLine.toList ++
      (documentTypeLine.toList ++ (spec.xmlElement.toList ++ "\n".toList)) := by
  have parts : spec.xml = declarationLine ++ "<!DOCTYPE " ++ topName ++ " SYSTEM \"" ++
      documentTypeUrl ++ "\">\n" ++ spec.xmlElement ++ "\n" := rfl
  simp only [parts, documentTypeLine, String.toList_append, List.append_assoc]

theorem skipDeclaration_line (rest : List Char) :
    skipDeclaration (skipByteOrderMark (declarationLine.toList ++ rest)) = some ('\n' :: rest) := rfl

theorem documentType_line (rest : List Char) :
    documentType true (documentTypeLine.toList ++ rest) = some ([], '\n' :: rest) := rfl

/-- Before the document type there is nothing but a line break to skip. -/
theorem skipAllMisc_documentTypeLine (fuel : Nat) (rest : List Char) :
    skipAllMisc (fuel + 1) ('\n' :: (documentTypeLine.toList ++ rest)) =
      documentTypeLine.toList ++ rest := by
  cases fuel <;> rfl

theorem xmlElement_head {spec : SearchSpec} (nonempty : spec.conditions ≠ []) (rest : List Char) :
    ∃ more, spec.xmlElement.toList ++ rest = '<' :: 'z' :: more := by
  rw [← chars_inside nonempty]
  exact ⟨_, rfl⟩

/-- Before the element there is nothing but a line break to skip. -/
theorem skipAllMisc_tag (fuel : Nat) (rest : List Char) :
    skipAllMisc (fuel + 1) ('\n' :: '<' :: 'z' :: rest) = '<' :: 'z' :: rest := by
  cases fuel <;> rfl

/-- A written search is one document, unless a value holds a character that no document holds. -/
theorem document?_xml {spec : SearchSpec} (nonempty : spec.conditions ≠ []) :
    document? true spec.xml =
      if spec.conditions.all Condition.isWritable then some spec.element else none := by
  have read := elementMarkup?_xmlElement nonempty "\n".toList
  obtain ⟨more, head⟩ := xmlElement_head nonempty "\n".toList
  rw [head] at read
  rw [document?, toList_xml, head]
  simp only [skipDeclaration_line, Option.bind_eq_bind, Option.bind_some, List.length_cons,
    skipAllMisc_documentTypeLine, documentType_line, skipAllMisc_tag, read]
  by_cases writable : spec.conditions.all Condition.isWritable = true
  · simp only [writable, if_true, Option.bind_some, addAll?_markup]
    rfl
  · simp only [writable, if_false, Option.bind_none, Bool.false_eq_true]

end SearchSpec

end WordFinder
