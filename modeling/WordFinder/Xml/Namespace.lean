import WordFinder.Xml.Scan

/-!
# Namespaces

Attributes that declare a namespace bind a prefix for the element and what it contains. A prefix has
to be bound where it is used, and no two attributes may have the same name in the same namespace.
-/
set_option autoImplicit false

namespace WordFinder.Xml

structure Attribute where
  name : QName
  value : String
deriving DecidableEq, Repr

/-- The names of namespaces that prefixes stand for, innermost first. -/
abbrev Bindings := List (String × String)

def xmlNamespace : String := "http://www.w3.org/XML/1998/namespace"

def xmlnsNamespace : String := "http://www.w3.org/2000/xmlns/"

/-- The attributes of an element: those that bind prefixes and the others. -/
structure Attributes where
  /-- The prefixes bound, last first. -/
  bound : Bindings := []
  /-- The attributes that declare no namespace, in order. -/
  ordinary : List Attribute := []

/-- The attributes with one more, which may not bind a prefix again and may not misuse the two names
of namespaces that are reserved. -/
def Attributes.add? (attributes : Attributes) (a : Attribute) : Option Attributes :=
  if a.name.pfx = "xmlns" then
    if a.value = xmlnsNamespace || (a.name.local = "xml") != (a.value == xmlNamespace)
        || (attributes.bound.lookup a.name.local).isSome then none
    else if a.value = xmlNamespace then some attributes
    else some { attributes with bound := (a.name.local, a.value) :: attributes.bound }
  else if a.name.local = "xmlns" then
    if a.value = xmlNamespace || a.value = xmlnsNamespace then none
    else some attributes
  else some { attributes with ordinary := attributes.ordinary ++ [a] }

def namespaceOf? (bindings : Bindings) (name : QName) : Option (Option String) :=
  if name.pfx = "" then some none
  else if name.pfx = "xml" then some (some xmlNamespace)
  else (bindings.lookup name.pfx).map some

def areDistinct : List (Option String × String) → Bool
  | [] => true
  | name :: names => !names.contains name && areDistinct names

/-- The bindings within an element with these attributes, if the attributes use namespaces as they
should. -/
def Attributes.bindings? (attributes : Attributes) (outer : Bindings) : Option Bindings := do
  let bindings := attributes.bound ++ outer
  let names ← attributes.ordinary.mapM fun a =>
    (namespaceOf? bindings a.name).map fun ns => (ns, a.name.local)
  if areDistinct names then some bindings else none

def Attributes.plain (attributes : Attributes) : List (String × String) :=
  (attributes.ordinary.filter fun a => a.name.pfx == "").map fun a => (a.name.local, a.value)

def isBound (bindings : Bindings) (name : QName) : Bool :=
  name.pfx == "" || (bindings.lookup name.pfx).isSome

end WordFinder.Xml
