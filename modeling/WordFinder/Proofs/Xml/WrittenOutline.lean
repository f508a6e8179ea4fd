import Mathlib
import WordFinder.Proofs.Xml.EscapedValue
import WordFinder.Proofs.Xml.WrittenContent
import WordFinder.Xml.Outline

/-!
# Outlines of written markup

How tags with escaped attributes and white space between them change an outline that no reference
has touched: an empty tag adds one complete element, a start tag opens an element, an end tag closes
the innermost one, and white space does nothing.
-/
set_option autoImplicit false

namespace WordFinder.Xml

theorem areDistinct_iff (names : List (Option String × String)) :
    areDistinct names = true ↔ names.Nodup := by
  induction names with
  | nil => simp [areDistinct]
  | cons name names ih => simp [areDistinct, ih]

/-- Attributes without prefixes, whose names differ and declare no namespace. -/
structure ArePlain (attributes : List (String × String)) : Prop where
  names : ∀ a ∈ attributes, IsPlainName a.1
  noNamespace : ∀ a ∈ attributes, a.1 ≠ "xmlns"
  distinct : (attributes.map Prod.fst).Nodup

theorem arePlain_of_names {attributes : List (String × String)}
    (names : ∀ name ∈ attributes.map Prod.fst, IsPlainName name)
    (noNamespace : "xmlns" ∉ attributes.map Prod.fst)
    (distinct : (attributes.map Prod.fst).Nodup) : ArePlain attributes := by
  refine ⟨fun a member => names a.1 (List.mem_map_of_mem member), ?_, distinct⟩
  intro a member same
  exact noNamespace (same ▸ List.mem_map_of_mem member)

def plainAttribute (a : String × String) : Attribute :=
  ⟨⟨"", a.1⟩, a.2⟩

/-- An element without a prefix of which the start tag was read. -/
def OpenElement.ofTag (name : String) (attributes : List (String × String)) (bindings : Bindings)
    (children : List Element) : OpenElement :=
  ⟨⟨"", name⟩, attributes, bindings, children⟩

theorem mapM_namespaceOf? (bindings : Bindings) (attributes : List (String × String)) :
    ((attributes.map plainAttribute).mapM fun a =>
        (namespaceOf? bindings a.name).map fun ns => (ns, a.name.local)) =
      some (attributes.map fun a => (none, a.1)) := by
  induction attributes with
  | nil => rfl
  | cons a attributes ih =>
    rw [List.map_cons, List.mapM_cons, ih]
    rfl

theorem bindings?_plain {attributes : List (String × String)}
    (distinct : (attributes.map Prod.fst).Nodup) (outer : Bindings) :
    Attributes.bindings? ⟨[], attributes.map plainAttribute⟩ outer = some outer := by
  have different : areDistinct (attributes.map fun a => ((none : Option String), a.1)) = true := by
    rw [areDistinct_iff]
    have paired : attributes.map (fun a => ((none : Option String), a.1)) =
        (attributes.map Prod.fst).map (Prod.mk none) := by simp
    rw [paired]
    exact distinct.map (Prod.mk_right_injective _)
  simp only [Attributes.bindings?, mapM_namespaceOf?, different, List.nil_append,
    Option.bind_eq_bind, Option.bind_some, if_true]

theorem plain_plainAttributes (attributes : List (String × String)) :
    Attributes.plain ⟨[], attributes.map plainAttribute⟩ = attributes := by
  simp [Attributes.plain, plainAttribute, List.filter_map, Function.comp_def]

namespace Outline

theorem addAttribute?_escaped (entities : Entities) (complete : List Element)
    (opened : List OpenElement) (ordinary : List Attribute) (left : Nat) {a : String × String}
    (noNamespace : a.1 ≠ "xmlns") :
    addAttribute? (valueAt entities maxEntityDepth) ⟨complete, opened, ⟨[], ordinary⟩, left⟩
        (escapedAttribute a) =
      some ⟨complete, opened, ⟨[], ordinary ++ [plainAttribute a]⟩, left⟩ := by
  have value := valueAt_escape entities left a.2
  simp only [addAttribute?, escapedAttribute, value, Option.bind_eq_bind, Option.bind_some,
    String.ofList_toList]
  rw [Attributes.add?, if_neg (show "" ≠ "xmlns" by decide), if_neg noNamespace]
  rfl

theorem addAttributes?_escaped (entities : Entities) (complete : List Element)
    (opened : List OpenElement) (left : Nat) {attributes : List (String × String)}
    (noNamespace : ∀ a ∈ attributes, a.1 ≠ "xmlns") (ordinary : List Attribute) :
    (attributes.map escapedAttribute).foldlM (addAttribute? (valueAt entities maxEntityDepth))
        ⟨complete, opened, ⟨[], ordinary⟩, left⟩ =
      some ⟨complete, opened, ⟨[], ordinary ++ attributes.map plainAttribute⟩, left⟩ := by
  induction attributes generalizing ordinary with
  | nil => simp
  | cons a attributes ih =>
    rw [List.map_cons, List.foldlM_cons,
      addAttribute?_escaped entities complete opened ordinary left
        (noNamespace a (List.mem_cons_self ..)), Option.bind_eq_bind, Option.bind_some,
      ih (fun b member => noNamespace b (List.mem_cons_of_mem _ member)), List.map_cons,
      List.append_assoc, List.singleton_append]

theorem addStartTag?_content (entities : Entities) (complete : List Element)
    (opened : List OpenElement) (left : Nat) (name : String) {attributes : List (String × String)}
    (plain : ArePlain attributes) :
    addStartTag? (valueAt entities maxEntityDepth) ⟨complete, opened, {}, left⟩
        ⟨⟨"", name⟩, attributes.map escapedAttribute, .content⟩ =
      some ⟨complete,
        .ofTag name attributes (bindings ⟨complete, opened, {}, left⟩) [] :: opened, {}, left⟩ := by
  have read := addAttributes?_escaped entities complete opened left plain.noNamespace []
  have bound := bindings?_plain plain.distinct (bindings ⟨complete, opened, {}, left⟩)
  rw [List.nil_append] at read
  simp only [addStartTag?, read, Option.bind_eq_bind, Option.bind_some]
  have same : bindings ⟨complete, opened, ⟨[], attributes.map plainAttribute⟩, left⟩ =
      bindings ⟨complete, opened, {}, left⟩ := rfl
  simp only [same, bound, plain_plainAttributes, isBound, OpenElement.ofTag]
  rfl

theorem addStartTag?_empty (entities : Entities) (complete : List Element)
    (opened : List OpenElement) (left : Nat) (name : String) {attributes : List (String × String)}
    (plain : ArePlain attributes) :
    addStartTag? (valueAt entities maxEntityDepth) ⟨complete, opened, {}, left⟩
        ⟨⟨"", name⟩, attributes.map escapedAttribute, .empty⟩ =
      some (append ⟨complete, opened, {}, left⟩ ⟨name, attributes, []⟩) := by
  have read := addAttributes?_escaped entities complete opened left plain.noNamespace []
  have bound := bindings?_plain plain.distinct (bindings ⟨complete, opened, {}, left⟩)
  rw [List.nil_append] at read
  simp only [addStartTag?, read, Option.bind_eq_bind, Option.bind_some]
  have same : bindings ⟨complete, opened, ⟨[], attributes.map plainAttribute⟩, left⟩ =
      bindings ⟨complete, opened, {}, left⟩ := rfl
  simp only [same, bound, plain_plainAttributes, isBound]
  rfl

theorem addEndTag?_plain (complete : List Element) (opened : List OpenElement) (left : Nat)
    (name : String) (attributes : List (String × String)) (bindings : Bindings)
    (children : List Element) :
    addEndTag? ⟨complete, .ofTag name attributes bindings children :: opened, {}, left⟩ ⟨"", name⟩ =
      some (append ⟨complete, opened, {}, left⟩ ⟨name, attributes, children.reverse⟩) := by
  have noNames : (([] : List (String × String)).map Prod.fst).Nodup := List.nodup_nil
  have bound (outer : Bindings) : Attributes.bindings? {} outer = some outer :=
    bindings?_plain noNames outer
  simp only [addEndTag?, bound, OpenElement.ofTag, Option.bind_eq_bind, Option.bind_some, if_true]
  rfl

theorem addText?_spaces (entities : Entities) (nested : Bool)
    (readEntity : Outline → List Char → Option Outline) (o : Outline) {cs : List Char}
    (spaces : ∀ c ∈ cs, isSpace c = true) : addText? entities nested readEntity 0 o cs = some o := by
  induction cs with
  | nil => rfl
  | cons c cs ih =>
    have noAmp := isSpace_ne (spaces c (List.mem_cons_self ..)) (show isSpace '&' = false by decide)
    rw [addText?, if_neg noAmp]
    exact ih fun d member => spaces d (List.mem_cons_of_mem _ member)

end Outline

end WordFinder.Xml
