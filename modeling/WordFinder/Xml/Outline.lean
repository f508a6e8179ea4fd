import WordFinder.Xml.Element
import WordFinder.Xml.Markup
import WordFinder.Xml.Namespace

/-!
# Outlines

What has been read of the elements of a document, piece by piece of its markup. Entities that a text
refers to add to the same outline, so elements may start in one text and end in another. The
attributes of a start tag that its text cuts off stay behind and go to the next tag that is complete.
-/
set_option autoImplicit false

namespace WordFinder.Xml

/-- An element whose end tag is still to come. -/
structure OpenElement where
  name : QName
  attributes : List (String × String)
  bindings : Bindings
  /-- The child elements so far, last first. -/
  children : List Element

def OpenElement.close (e : OpenElement) : Element :=
  ⟨e.name.local, e.attributes, e.children.reverse⟩

structure Outline where
  /-- The complete elements that stand in no other, last first. -/
  complete : List Element
  /-- The elements that are open, innermost first. -/
  opened : List OpenElement
  /-- The attributes that belong to no tag yet. -/
  pending : Attributes
  left : Nat

namespace Outline

def blank : Outline := ⟨[], [], {}, 0⟩

def bindings (o : Outline) : Bindings :=
  match o.opened with
  | [] => []
  | e :: _ => e.bindings

def append (o : Outline) (e : Element) : Outline :=
  match o.opened with
  | [] => { o with complete := e :: o.complete }
  | parent :: outer =>
    { o with opened := { parent with children := e :: parent.children } :: outer }

def addAttribute? (readValue : Nat → List Char → Option (List Char × Nat)) (o : Outline)
    (a : WrittenAttribute) : Option Outline := do
  let (value, left) ← readValue o.left a.text
  let pending ← o.pending.add? ⟨a.name, .ofList value⟩
  return { o with pending, left }

/-- The outline after a start tag, whose element takes all attributes that belong to no tag yet. -/
def addStartTag? (readValue : Nat → List Char → Option (List Char × Nat)) (o : Outline)
    (tag : StartTag) : Option Outline := do
  if tag.name.pfx = "xmlns" then none
  let o ← tag.attributes.foldlM (addAttribute? readValue) o
  if tag.ending = .cutOff then return o
  let bindings ← o.pending.bindings? o.bindings
  if !isBound bindings tag.name then none
  let element : OpenElement := ⟨tag.name, o.pending.plain, bindings, []⟩
  let o := { o with pending := {} }
  return if tag.ending = .empty then o.append element.close
    else { o with opened := element :: o.opened }

/-- The outline after an end tag, which drops the attributes that belong to no tag yet. -/
def addEndTag? (o : Outline) (name : QName) : Option Outline := do
  let _ ← o.pending.bindings? o.bindings
  match o.opened with
  | [] => none
  | e :: outer =>
    if e.name = name then
      some (append { o with opened := outer, pending := {} } e.close)
    else none

/-- The outline after the entities that a text refers to, where the first `skip` characters belong
to a reference already read. Texts of entities are read by `readEntity`. -/
def addText? (entities : Entities) (nested : Bool)
    (readEntity : Outline → List Char → Option Outline) :
    Nat → Outline → List Char → Option Outline
  | _, o, [] => some o
  | skip + 1, o, _ :: cs => addText? entities nested readEntity skip o cs
  | 0, o, c :: cs =>
    if c = '&' then
      match reference? cs with
      | none => none
      | some (.char _, length) => addText? entities nested readEntity length o cs
      | some (.entity name, length) => do
        let text ← entities.lookup name
        let left ← spend? nested o.left
        let o ← readEntity { o with left } text
        addText? entities nested readEntity length o cs
    else addText? entities nested readEntity 0 o cs

def add? (readValue : Nat → List Char → Option (List Char × Nat))
    (readText : Outline → List Char → Option Outline) (o : Outline) : Markup → Option Outline
  | .startTag tag => o.addStartTag? readValue tag
  | .endTag name => o.addEndTag? name
  | .text cs => readText o cs

/-- The outline after some markup at a depth of entities, given how many levels deeper it may go. -/
def addAll? (entities : Entities) : Nat → Outline → List Markup → Option Outline
  | 0, o, pieces =>
    pieces.foldlM (add? (valueAt entities 0) (addText? entities true (fun _ _ => none) 0)) o
  | levels + 1, o, pieces =>
    pieces.foldlM
      (add? (valueAt entities (levels + 1))
        (addText? entities (levels + 1 != maxEntityDepth)
          (fun o text => do addAll? entities levels o (← entityMarkup? text)) 0)) o

def element? (o : Outline) : Option Element :=
  if o.opened.isEmpty then o.complete.getLast? else none

end Outline

end WordFinder.Xml
