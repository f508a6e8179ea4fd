import WordFinder.Search.Spec
import WordFinder.Xml.Element

/-!
# Writing saved searches

A saved search is a document with one element for the search, one for its conditions, one for how
they are joined, and one for each condition, which carries the values that its kind reads.
-/
set_option autoImplicit false

namespace WordFinder

namespace SavedSearch

def topName : String := "zyzzyva-search"

def conditionsName : String := "conditions"

def conditionName : String := "condition"

def joinName (conjunction : Bool) : String :=
  if conjunction then "and" else "or"

def documentTypeUrl : String := "http://boshvark.com/dtd/zyzzyva-search.dtd"

def numberText (n : Int32) : String :=
  toString n.toInt

end SavedSearch

open SavedSearch

def Condition.payloadAttributes (c : Condition) : List (String × String) :=
  let min := ("min", numberText c.min)
  let max := ("max", numberText c.max)
  let blanks := ("int", numberText c.blanks)
  match c.kind.payload with
  | .text => [("string", c.string), ("negated", if c.negated then "1" else "0")]
  | .range => [min, max]
  | .probability => [min, max, blanks]
  | .order => [blanks, ("bool", if c.lax then "true" else "false"), min, max]
  | .percentage => [min, max, ("string", c.string)]

def Condition.xml (c : Condition) : String :=
  Xml.emptyTag conditionName (("type", c.kind.name) :: c.payloadAttributes)

namespace SearchSpec

/-- The search as an element. A search without conditions has nothing inside. -/
def xmlElement (spec : SearchSpec) : String :=
  let top := "<" ++ topName ++ " version=\"" ++ toString currentVersion ++ "\""
  if spec.conditions.isEmpty then top ++ "/>"
  else
    let join := joinName spec.conjunction
    top ++ ">\n  <" ++ conditionsName ++ ">\n    <" ++ join ++ ">\n"
      ++ String.join (spec.conditions.map fun c => "      " ++ c.xml ++ "\n")
      ++ "    </" ++ join ++ ">\n  </" ++ conditionsName ++ ">\n</" ++ topName ++ ">"

def xml (spec : SearchSpec) : String :=
  "<?xml version=\"1.0\" encoding=\"UTF-8\"?>\n"
    ++ "<!DOCTYPE " ++ topName ++ " SYSTEM \"" ++ documentTypeUrl ++ "\">\n"
    ++ spec.xmlElement ++ "\n"

end SearchSpec

end WordFinder
