import WordFinder.Xml.Outline

/-!
# Documents

A document has an optional declaration, an optional document type and one element, with comments,
processing instructions and white space between them. A document type may declare entities. A text
that is not such a document has no element.
-/
set_option autoImplicit false

namespace WordFinder.Xml

/-- What is left after a comment, an instruction or white space, if one comes next. -/
def skipMisc (cs : List Char) : Option (List Char) :=
  if startsWith "<!--" cs then skipComment cs
  else if startsWith "<?" cs then skipInstruction cs
  else expectSpaces cs

/-- What is left after all comments, instructions and white space. -/
def skipAllMisc : Nat → List Char → List Char
  | 0, cs => cs
  | fuel + 1, cs =>
    match skipMisc cs with
    | some rest => skipAllMisc fuel rest
    | none => cs

/-- What is left after a part of the declaration that has the form of an attribute: its name, and a
quoted value that a test accepts. -/
def expectPseudoAttribute (name : String) (accepts : List Char → Bool) (cs : List Char) :
    Option (List Char) := do
  let (value, rest) ← quoted (fun _ => true) (← expectEquals (← expect name cs))
  if accepts value then some rest else none

def isVersion : List Char → Bool
  | '1' :: '.' :: digits => digits.all Char.isDigit
  | _ => false

def isEncoding (value : List Char) : Bool :=
  value.all fun c => c.isAlphanum || c == '.' || c == '-' || c == '_'

/-- What is left after spaces, which may be missing before the end of the declaration. -/
def spacesBeforeNext (cs : List Char) : Option (List Char) :=
  if startsWith "?>" cs then some cs else expectSpaces cs

def skipDeclaration (cs : List Char) : Option (List Char) :=
  if !startsWith "<?xml " cs then some cs
  else do
    let rest ← expectPseudoAttribute "version" isVersion (skipSpaces (cs.drop 6))
    let rest ← spacesBeforeNext rest
    let rest ←
      if startsWith "encoding" rest then do
        spacesBeforeNext (← expectPseudoAttribute "encoding" isEncoding rest)
      else some rest
    let rest ←
      if startsWith "standalone" rest then
        expectPseudoAttribute "standalone" (fun v => v == "yes".toList || v == "no".toList) rest
      else some rest
    expect "?>" (skipSpaces rest)

/-- What is left after the name of an external document type or entity. -/
def expectExternalId (cs : List Char) : Option (List Char) :=
  if startsWith "SYSTEM" cs then do
    let (_, rest) ← quoted (fun _ => true) (← expectSpaces (cs.drop 6))
    return rest
  else if startsWith "PUBLIC" cs then do
    let (_, rest) ← quoted (fun _ => true) (← expectSpaces (cs.drop 6))
    let (_, rest) ← quoted (fun _ => true) (← expectSpaces rest)
    return rest
  else none

/-- What is left after the notation of an external entity, if one is given. -/
def skipNotation (cs : List Char) : Option (List Char) :=
  if startsWith "NDATA" cs then do
    let (_, rest) ← name? (← expectSpaces (cs.drop 5))
    return rest
  else some cs

/-- The text of an entity, unless that is elsewhere, and what is left after its definition. -/
def entityText? (isParameter : Bool) (cs : List Char) : Option (Option (List Char) × List Char) :=
  if startsWith "\"" cs || startsWith "'" cs then
    (quoted (fun _ => true) cs).map fun (text, rest) => (some text, rest)
  else do
    let rest ← expectExternalId cs
    if isParameter then return (none, rest)
    else return (none, ← skipNotation (skipSpaces rest))

/-- The declaration of an entity: its name, and its text unless that is elsewhere. -/
def entityDeclaration? (cs : List Char) : Option (String × Option (List Char) × List Char) := do
  let rest ← expectSpaces (← expect "<!ENTITY" cs)
  let isParameter := startsWith "%" rest
  let rest ← if isParameter then expectSpaces (rest.drop 1) else some rest
  let (name, rest) ← name? rest
  let (text?, rest) ← entityText? isParameter (← expectSpaces rest)
  return (.ofList name, text?, ← expect ">" (skipSpaces rest))

/-- Whether a declaration that says nothing about entities comes next. -/
def startsOtherDeclaration (cs : List Char) : Bool :=
  startsWith "<!ELEMENT" cs || startsWith "<!ATTLIST" cs || startsWith "<!NOTATION" cs

/-- The entities that the inside of a document type declares, in order, and what is left after it. -/
def internalSubset : Nat → List Char → Option (Entities × List Char)
  | 0, _ => none
  | fuel + 1, cs =>
    if startsWith "]" cs then (expect ">" (skipSpaces (cs.drop 1))).map fun rest => ([], rest)
    else if startsWith "<!ENTITY" cs then do
      let (name, text?, rest) ← entityDeclaration? cs
      let (entities, rest) ← internalSubset fuel rest
      return ((text?.map fun text => (name, text)).toList ++ entities, rest)
    else if startsOtherDeclaration cs then do
      let (_, rest) ← upTo ">" cs
      internalSubset fuel rest
    else do internalSubset fuel (← skipMisc cs)

/-- The entities of a document type, if the document has one, and what is left after it. A document
type with an inside may be refused. -/
def documentType (allowInside : Bool) (cs : List Char) : Option (Entities × List Char) :=
  if !startsWith "<!DOCTYPE" cs then some ([], cs)
  else do
    let (_, rest) ← name? (← expectSpaces (cs.drop 9))
    let rest := skipSpaces rest
    let rest ←
      if startsWith "SYSTEM" rest || startsWith "PUBLIC" rest then
        (expectExternalId rest).map skipSpaces
      else some rest
    match rest with
    | '>' :: rest => some ([], rest)
    | '[' :: rest => if allowInside then internalSubset (rest.length + 1) rest else none
    | _ => none

/-- What is left after the mark that a document may start with. -/
def skipByteOrderMark : List Char → List Char
  | '\uFEFF' :: cs => cs
  | cs => cs

def document? (allowInside : Bool) (text : String) : Option Element := do
  let cs ← skipDeclaration (skipByteOrderMark text.toList)
  let cs := skipAllMisc cs.length cs
  let (entities, cs) ← documentType allowInside cs
  let cs := skipAllMisc cs.length cs
  let (pieces, cs) ← elementMarkup? cs
  let outline ← Outline.blank.addAll? entities maxEntityDepth pieces
  if (skipAllMisc cs.length cs).isEmpty then outline.element? else none

end WordFinder.Xml
