/-!
# Escaped text

How text is written as the value of an attribute: each mark of the language, and each kind of white
space that a reader would fold, is written as a reference.
-/
set_option autoImplicit false

namespace WordFinder.Xml

def references : List (Char × String) :=
  [('&', "&amp;"), ('<', "&lt;"), ('>', "&gt;"), ('"', "&quot;"), ('\'', "&apos;"),
    ('\n', "&#10;"), ('\r', "&#13;"), ('\t', "&#9;")]

def escapeChar (c : Char) : List Char :=
  match references.lookup c with
  | some reference => reference.toList
  | none => [c]

def escape (s : String) : String :=
  .ofList (s.toList.flatMap escapeChar)

end WordFinder.Xml
