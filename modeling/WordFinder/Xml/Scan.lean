import WordFinder.Xml.Character

/-!
# Scanning XML

The small readers that the notation of XML is made of. Each takes the characters that are left to
read and gives back those that are left afterwards; it gives nothing where the notation is broken.
-/
set_option autoImplicit false

namespace WordFinder.Xml

def expect (mark : String) (cs : List Char) : Option (List Char) :=
  if mark.toList.isPrefixOf cs then some (cs.drop mark.length) else none

def startsWith (mark : String) (cs : List Char) : Bool :=
  mark.toList.isPrefixOf cs

def skipSpaces (cs : List Char) : List Char :=
  cs.dropWhile isSpace

def expectSpaces : List Char → Option (List Char)
  | c :: cs => if isSpace c then some (skipSpaces cs) else none
  | [] => none

/-- The text up to the first occurrence of a mark, and what is left after the mark. -/
def upTo (mark : String) : List Char → Option (List Char × List Char)
  | [] => none
  | c :: cs =>
    if mark.toList.isPrefixOf (c :: cs) then some ([], (c :: cs).drop mark.length)
    else (upTo mark cs).map fun (text, rest) => (c :: text, rest)

/-- The text up to the first occurrence of a mark, where every character is one that a document may
hold. -/
def charsUpTo (mark : String) (cs : List Char) : Option (List Char × List Char) :=
  (upTo mark cs).filter fun (text, _) => text.all isChar

/-- A name in which colons are letters like others. -/
def name? (cs : List Char) : Option (List Char × List Char) :=
  let isPart := fun c => isNamePart c || c == ':'
  match cs with
  | c :: _ =>
    if isNameStart c || c == ':' then some (cs.takeWhile isPart, cs.dropWhile isPart) else none
  | [] => none

/-- A name with the prefix that stands before its colon, which is empty if there is none. -/
structure QName where
  pfx : String
  «local» : String
deriving DecidableEq, Repr

def startsName : List Char → Bool
  | c :: _ => isNameStart c
  | [] => false

/-- A name with at most one colon. Its local part may not be empty. -/
def qname? (cs : List Char) : Option (QName × List Char) :=
  let first := cs.takeWhile isNamePart
  match cs.dropWhile isNamePart with
  | ':' :: rest =>
    let second := rest.takeWhile isNamePart
    let rest := rest.dropWhile isNamePart
    if (first.isEmpty || startsName first) && startsName second && rest.head? != some ':' then
      some (⟨.ofList first, .ofList second⟩, rest)
    else none
  | rest => if startsName first then some (⟨"", .ofList first⟩, rest) else none

def expectEquals (cs : List Char) : Option (List Char) :=
  (expect "=" (skipSpaces cs)).map skipSpaces

/-- A text between two quotes of one kind, where every character passes a test. -/
def quoted (allowed : Char → Bool) : List Char → Option (List Char × List Char)
  | quote :: cs =>
    if quote == '"' || quote == '\'' then
      let text := cs.takeWhile (· != quote)
      match cs.dropWhile (· != quote) with
      | _ :: rest => if text.all allowed then some (text, rest) else none
      | [] => none
    else none
  | [] => none

end WordFinder.Xml
