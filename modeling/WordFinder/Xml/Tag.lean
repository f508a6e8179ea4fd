import WordFinder.Xml.Value

/-!
# Tags

A start tag has a name and attributes, an end tag has a name. A start tag may close its own element,
and the text that it stands in may end before the tag does.
-/
set_option autoImplicit false

namespace WordFinder.Xml

/-- An attribute as it is written, with the text between its quotes. -/
structure WrittenAttribute where
  name : QName
  text : List Char
deriving DecidableEq, Repr

inductive TagEnding where
  | content
  /-- The element has no content and no end tag. -/
  | empty
  /-- The text ends after the name or after an attribute. -/
  | cutOff
deriving DecidableEq, Repr

structure StartTag where
  name : QName
  attributes : List WrittenAttribute
  ending : TagEnding
deriving DecidableEq, Repr

/-- The rest of a start tag after its name: its attributes, how it ends, and what is left to read.
Each attribute needs a space before it. -/
def tagRest : Nat → List Char → Option (List WrittenAttribute × TagEnding × List Char)
  | 0, _ => none
  | _ + 1, [] => some ([], .cutOff, [])
  | fuel + 1, cs =>
    match skipSpaces cs with
    | '/' :: rest => (expect ">" rest).map fun rest => ([], .empty, rest)
    | '>' :: rest => some ([], .content, rest)
    | rest => do
      let _ ← expectSpaces cs
      let (name, rest) ← qname? rest
      let (text, rest) ← quoted (fun c => isChar c && c != '<') (← expectEquals rest)
      let (attributes, ending, rest) ← tagRest fuel rest
      return (⟨name, text⟩ :: attributes, ending, rest)

def startTag? (cs : List Char) : Option (StartTag × List Char) := do
  let (name, rest) ← qname? (← expect "<" cs)
  let (attributes, ending, rest) ← tagRest (rest.length + 1) rest
  return (⟨name, attributes, ending⟩, rest)

def endTag? (cs : List Char) : Option (QName × List Char) := do
  let (name, rest) ← qname? (← expect "</" cs)
  return (name, ← expect ">" (skipSpaces rest))

end WordFinder.Xml
