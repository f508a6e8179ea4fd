import WordFinder.Xml.Escape

/-!
# Elements

What a document says once its notation is read: an element has a name, attributes and child
elements. Text between elements is not kept, nor are names and attributes of other namespaces told
from those of none, except that an attribute with a prefix is not an attribute of the element.
-/
set_option autoImplicit false

namespace WordFinder.Xml

structure Element where
  /-- The name without a prefix. -/
  name : String
  /-- The attributes without a prefix. -/
  attributes : List (String × String)
  children : List Element
deriving Repr

def Element.attribute? (e : Element) (name : String) : Option String :=
  e.attributes.lookup name

def attributeText : String × String → String
  | (name, value) => " " ++ name ++ "=\"" ++ escape value ++ "\""

def emptyTag (name : String) (attributes : List (String × String)) : String :=
  "<" ++ name ++ String.join (attributes.map attributeText) ++ "/>"

end WordFinder.Xml
