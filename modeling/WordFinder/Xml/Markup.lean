import WordFinder.Xml.Tag

/-!
# Markup

The text of an element or of an entity is a sequence of tags and plain text. Comments, processing
instructions and quoted sections of text stand between them and say nothing.

A text need not close what it opens. The content of a document ends with the end tag that brings its
own tags into balance, whatever the entities it refers to may open or close. An entity may close
elements that are open where it is referred to, but only after it has had a start tag.
-/
set_option autoImplicit false

namespace WordFinder.Xml

/-- What is left after a comment, of which the opening mark is still to be read. -/
def skipComment (cs : List Char) : Option (List Char) := do
  let (text, rest) ← charsUpTo "-->" (← expect "<!--" cs)
  if (upTo "--" text).isSome || text.getLast? == some '-' then none else some rest

/-- What is left after a processing instruction. A declaration is none. -/
def skipInstruction (cs : List Char) : Option (List Char) := do
  if startsWith "<?xml " cs then none
  let (_, rest) ← name? (← expect "<?" cs)
  let (_, rest) ← charsUpTo "?>" (skipSpaces rest)
  return rest

/-- What is left after a quoted section of text, in which nothing is markup. -/
def skipSection (cs : List Char) : Option (List Char) := do
  let (_, rest) ← charsUpTo "]]>" (← expect "<![CDATA[" cs)
  return rest

inductive Markup where
  | startTag (tag : StartTag)
  | endTag (name : QName)
  | text (cs : List Char)
deriving DecidableEq, Repr

/-- The next piece of a text that is not at its end, if the piece says anything, and what is left to
read. -/
def nextMarkup? (cs : List Char) : Option (Option Markup × List Char) :=
  match cs with
  | '<' :: '/' :: _ => (endTag? cs).map fun (name, rest) => (some (.endTag name), rest)
  | '<' :: '!' :: _ =>
    (if startsWith "<![CDATA[" cs then skipSection cs else skipComment cs).map (none, ·)
  | '<' :: '?' :: _ => (skipInstruction cs).map (none, ·)
  | '<' :: _ => (startTag? cs).map fun (tag, rest) => (some (.startTag tag), rest)
  | _ =>
    let text := cs.takeWhile (· != '<')
    if !text.all isChar || (upTo "]]>" text).isSome then none
    else some (some (.text text), cs.dropWhile (· != '<'))

def Markup.depthAfter (depth : Nat) : Markup → Nat
  | .startTag tag => if tag.ending = .content then depth + 1 else depth
  | .endTag _ => depth - 1
  | .text _ => depth

/-- The markup up to the end of a text, or up to the tag that closes the last of `depth` elements if
a depth is given, and what is left to read. -/
def markupFrom : Nat → Option Nat → List Char → Option (List Markup × List Char)
  | 0, _, _ => none
  | fuel + 1, depth?, cs =>
    if cs.isEmpty || depth? == some 0 then some ([], cs)
    else do
      let (piece?, rest) ← nextMarkup? cs
      match piece? with
      | none => markupFrom fuel depth? rest
      | some piece =>
        let (pieces, rest) ← markupFrom fuel (depth?.map piece.depthAfter) rest
        return (piece :: pieces, rest)

def elementMarkup? (cs : List Char) : Option (List Markup × List Char) := do
  let (tag, rest) ← startTag? cs
  let (pieces, rest) ←
    markupFrom (rest.length + 1) (some (Markup.depthAfter 0 (.startTag tag))) rest
  return (.startTag tag :: pieces, rest)

def closesFirst : List Markup → Bool
  | [] => false
  | .startTag _ :: _ => false
  | .endTag _ :: _ => true
  | .text _ :: pieces => closesFirst pieces

def entityMarkup? (cs : List Char) : Option (List Markup) := do
  let (pieces, _) ← markupFrom (cs.length + 1) none cs
  if closesFirst pieces then none else some pieces

end WordFinder.Xml
