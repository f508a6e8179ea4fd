import WordFinder.Xml.Scan

/-!
# References and attribute values

A reference stands for a character, given by its number or by one of five names, or for an entity
that the document has declared. In the value of an attribute, references are replaced and each line
break or tab that is written out becomes a space. Entities may refer to entities up to ten levels
deep, and one entity may lead to at most 255 references to others.
-/
set_option autoImplicit false

namespace WordFinder.Xml

inductive Reference where
  | char (c : Char)
  | entity (name : String)
deriving DecidableEq, Repr

def digitValue (c : Char) : Nat :=
  if c.isDigit then c.toNat - '0'.toNat else c.toLower.toNat - 'a'.toNat + 10

/-- The character with a given number. A number that is no character gives the replacement
character, and a number above 32 bits gives nothing. -/
def charOfDigits? (base : Nat) (digits : List Char) : Option Char :=
  let n := digits.foldl (fun n c => base * n + digitValue c) 0
  if digits.isEmpty || 0x100000000 ≤ n then none
  else
    let c := if n.isValidChar then Char.ofNat n else '\uFFFD'
    if isChar c then some c else none

def namedChars : List (String × Char) :=
  [("quot", '"'), ("amp", '&'), ("apos", '\''), ("lt", '<'), ("gt", '>')]

def Reference.ofName (name : String) : Reference :=
  match namedChars.lookup name with
  | some c => .char c
  | none => .entity name

/-- A reference whose body has been read, and the length of the text after the ampersand, if a
semicolon follows. -/
def closeReference (reference? : Option Reference) (length : Nat) (rest : List Char) :
    Option (Reference × Nat) :=
  match rest with
  | ';' :: _ => reference?.map fun reference => (reference, length + 1)
  | _ => none

def isHexDigit (c : Char) : Bool :=
  c.isDigit || ('a' ≤ c && c ≤ 'f') || ('A' ≤ c && c ≤ 'F')

def reference? : List Char → Option (Reference × Nat)
  | '#' :: 'x' :: cs =>
    let digits := cs.takeWhile isHexDigit
    closeReference ((charOfDigits? 16 digits).map .char) (digits.length + 2)
      (cs.dropWhile isHexDigit)
  | '#' :: cs =>
    let digits := cs.takeWhile Char.isDigit
    closeReference ((charOfDigits? 10 digits).map .char) (digits.length + 1)
      (cs.dropWhile Char.isDigit)
  | cs =>
    match name? cs with
    | some (name, rest) => closeReference (some (.ofName (.ofList name))) name.length rest
    | none => none

abbrev Entities := List (String × List Char)

/-- How many levels deep entities may refer to entities. -/
def maxEntityDepth : Nat := 10

/-- How many references one entity may lead to. -/
def maxNestedReferences : Nat := 255

/-- What is left to spend on references once one more is followed. References of the document itself
start anew. -/
def spend? (nested : Bool) (left : Nat) : Option Nat :=
  if nested then (if left = 0 then none else some (left - 1)) else some maxNestedReferences

def foldSpace (c : Char) : Char :=
  if c == '\n' || c == '\r' || c == '\t' then ' ' else c

/-- The value that a text stands for, of which the first `skip` characters belong to a reference
already read, with what is left to spend on references. Texts of entities are read by
`readEntity`. -/
def valueFrom (entities : Entities) (nested : Bool)
    (readEntity : Nat → List Char → Option (List Char × Nat)) :
    Nat → Nat → List Char → Option (List Char × Nat)
  | _, left, [] => some ([], left)
  | skip + 1, left, _ :: cs => valueFrom entities nested readEntity skip left cs
  | 0, left, c :: cs =>
    if c = '&' then
      match reference? cs with
      | none => none
      | some (.char d, length) =>
        if nested && d == '<' then none
        else
          (valueFrom entities nested readEntity length left cs).map fun (value, left) =>
            ((if nested then foldSpace d else d) :: value, left)
      | some (.entity name, length) => do
        let text ← entities.lookup name
        let (inner, spent) ← readEntity (← spend? nested left) text
        let (value, left) ←
          valueFrom entities nested readEntity length (if nested then spent else left) cs
        return (inner ++ value, left)
    else if c = '\r' && cs.head? == some '\n' then
      valueFrom entities nested readEntity 0 left cs
    else
      (valueFrom entities nested readEntity 0 left cs).map fun (value, left) =>
        (foldSpace c :: value, left)

/-- The value of a text at a depth of entities, given how many levels deeper it may go. -/
def valueAt (entities : Entities) : Nat → Nat → List Char → Option (List Char × Nat)
  | 0, left, cs => valueFrom entities true (fun _ _ => none) 0 left cs
  | levels + 1, left, cs =>
    valueFrom entities (levels + 1 != maxEntityDepth) (valueAt entities levels) 0 left cs

end WordFinder.Xml
