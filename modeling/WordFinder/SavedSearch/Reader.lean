import WordFinder.SavedSearch.Writer
import WordFinder.Letter
import WordFinder.Text.Blank
import WordFinder.Text.Numeral
import WordFinder.Xml.Document

/-!
# Reading saved searches

A saved search may come from an older version. Conditions under retired names are read as the kinds
that took their place, and the search is upgraded to what its conditions meant.
-/
set_option autoImplicit false

namespace WordFinder

inductive SavedSearchError where
  | notXml
  | unexpectedElement (expected found : String)
  | missingElement (name : String)
  | unknownType (name : String)
  | missingAttribute (type attr : String)
  | invalidNumber (attr value : String)
  | emptyString (type : String)
  | noConditions
deriving DecidableEq, Repr

def SavedSearchError.message : SavedSearchError → String
  | notXml => "invalid XML"
  | unexpectedElement expected found =>
    "expected <" ++ expected ++ "> element, found <" ++ found ++ ">"
  | missingElement name => "missing <" ++ name ++ "> element"
  | unknownType name => "unknown condition type \"" ++ name ++ "\""
  | missingAttribute type attr =>
    "condition \"" ++ type ++ "\" is missing the " ++ attr ++ " attribute"
  | invalidNumber attr value =>
    "invalid number \"" ++ value ++ "\" in " ++ attr ++ " attribute"
  | emptyString type => "condition \"" ++ type ++ "\" has an empty string value"
  | noConditions => "search has no conditions"

namespace SavedSearch

inductive NumberShape where
  | exact
  | atLeast (max : Int32)
  | atMost
deriving DecidableEq, Repr

def NumberShape.bounds (n : Int32) : NumberShape → Int32 × Int32
  | exact => (n, n)
  | atLeast max => (n, max)
  | atMost => (0, n)

inductive RetiredName where
  | alias (kind : ConditionKind)
  | negated (kind : ConditionKind)
  | numbered (kind : ConditionKind) (shape : NumberShape)
deriving DecidableEq, Repr

def retiredNames : List (String × RetiredName) :=
  [("Exact Length", .numbered .length .exact),
    ("Minimum Length", .numbered .length (.atLeast (.ofNat maxWordLength))),
    ("Maximum Length", .numbered .length .atMost),
    ("Does Not Take Prefix", .negated .takesPrefix),
    ("Does Not Take Suffix", .negated .takesSuffix),
    ("Must Include", .alias .includesLetters),
    ("Must Exclude", .negated .includesLetters),
    ("Must Consist of", .alias .consistsOf),
    ("Must Belong to", .alias .belongsToGroup),
    ("Must Be in Word List", .alias .inWordList),
    ("Must Not Be in Word List", .negated .inWordList),
    ("Exact Anagrams", .numbered .anagramCount .exact),
    ("Minimum Anagrams", .numbered .anagramCount (.atLeast 999999)),
    ("Maximum Anagrams", .numbered .anagramCount .atMost)]

/-- Retired groups of words that a lexicon was new in, with the lexicon before it. -/
def retiredGroups : List (String × String) :=
  [("New in OWL2", "OWL"), ("New in CSW", "OSWI")]

def defaultBlanks : Int32 := 2

def required (e : Xml.Element) (attr type : String) : Except SavedSearchError String :=
  match e.attribute? attr with
  | some value => .ok value
  | none => .error (.missingAttribute type attr)

/-- The number that an attribute gives, with white space around it. -/
def readNumber (attr value : String) : Except SavedSearchError Int32 :=
  match Text.int32? (Text.trim value) with
  | some n => .ok n
  | none => .error (.invalidNumber attr value)

def requiredNumber (e : Xml.Element) (attr type : String) : Except SavedSearchError Int32 := do
  readNumber attr (← required e attr type)

def readBlanks (e : Xml.Element) : Except SavedSearchError Int32 :=
  match e.attribute? "int" with
  | some value => readNumber "int" value
  | none => .ok defaultBlanks

/-- Whether an element is marked as negated. A mark that is no number counts for nothing. -/
def readNegated (e : Xml.Element) : Bool :=
  match (e.attribute? "negated").bind fun value => Text.int32? (Text.trim value) with
  | some n => n != 0
  | none => false

/-- A group of words new in a lexicon is a negated condition on the lexicon before it. -/
def replaceRetiredGroup (c : Condition) : Condition :=
  match retiredGroups.lookup c.string with
  | some lexicon => { c with kind := .inLexicon, string := lexicon, negated := !c.negated }
  | none => c

def readText (e : Xml.Element) (kind : ConditionKind) (type : String) :
    Except SavedSearchError Condition := do
  let string ← required e "string" type
  let read : Condition := { kind, string, negated := readNegated e }
  let c := if kind = .belongsToGroup then replaceRetiredGroup read else read
  if !kind.isMatch && c.string.isEmpty then throw (.emptyString type)
  return c

def readRange (e : Xml.Element) (c : Condition) (type : String) :
    Except SavedSearchError Condition := do
  return { c with min := ← requiredNumber e "min" type, max := ← requiredNumber e "max" type }

/-- A range of percentages, or a single percentage that is the least share allowed. -/
def readPercentage (e : Xml.Element) (kind : ConditionKind) (type : String) :
    Except SavedSearchError Condition := do
  let c : Condition := { kind, string := ← required e "string" type }
  match (e.attribute? "percent").bind fun value => Text.int32? (Text.trim value) with
  | some percent => return { c with min := percent, max := 100 }
  | none => readRange e c type

def readKind (e : Xml.Element) (kind : ConditionKind) (type : String) :
    Except SavedSearchError Condition :=
  match kind.payload with
  | .text => readText e kind type
  | .range => readRange e { kind } type
  | .probability => do
    let c ← readRange e { kind } type
    return { c with blanks := ← readBlanks e }
  | .order => do
    let blanks ← readBlanks e
    readRange e { kind, blanks, lax := e.attribute? "bool" == some "true" } type
  | .percentage => readPercentage e kind type

def readRetired (e : Xml.Element) (type : String) : RetiredName → Except SavedSearchError Condition
  | .alias kind => readKind e kind type
  | .negated kind => do
    return { kind, string := ← required e "string" type, negated := true }
  | .numbered kind shape => do
    let (min, max) := shape.bounds (← requiredNumber e "number" type)
    return .ofRange kind min max

def expectName (e : Xml.Element) (expected : String) : Except SavedSearchError Unit :=
  if e.name = expected then .ok () else .error (.unexpectedElement expected e.name)

def readCondition (e : Xml.Element) : Except SavedSearchError Condition := do
  expectName e conditionName
  let type ← required e "type" ""
  match ConditionKind.ofName? type, retiredNames.lookup type with
  | some kind, _ => readKind e kind type
  | none, some retired => readRetired e type retired
  | none, none => throw (.unknownType type)

/-- The version of a saved search, which is the oldest if none is given. -/
def readVersion (e : Xml.Element) : Except SavedSearchError Nat :=
  match e.attribute? "version" with
  | none => .ok 0
  | some value => do
    let n ← readNumber "version" value
    if n < 0 then throw (.invalidNumber "version" value)
    return n.toInt.toNat

/-- Whether the conditions that an element joins must all hold. -/
def readJoin (e : Xml.Element) : Except SavedSearchError Bool :=
  if e.name = joinName true then .ok true
  else if e.name = joinName false then .ok false
  else .error (.unexpectedElement (joinName true) e.name)

def firstChild (e : Xml.Element) (missing : String) : Except SavedSearchError Xml.Element :=
  match e.children with
  | child :: _ => .ok child
  | [] => .error (.missingElement missing)

def readSearch (e : Xml.Element) : Except SavedSearchError SearchSpec := do
  expectName e topName
  let version ← readVersion e
  let list ← firstChild e conditionsName
  expectName list conditionsName
  let join ← firstChild list (joinName true)
  let conjunction ← readJoin join
  let conditions ← join.children.mapM readCondition
  if conditions.isEmpty then throw .noConditions
  return SearchSpec.upgraded { conditions, conjunction, version }

end SavedSearch

def elementOfXml (allowInside : Bool) (text : String) : Except SavedSearchError Xml.Element :=
  match Xml.document? allowInside text with
  | some e => .ok e
  | none => .error .notXml

/-- The condition whose element a document holds. The document may not have a type with an
inside. -/
def Condition.ofXml (text : String) : Except SavedSearchError Condition := do
  SavedSearch.readCondition (← elementOfXml false text)

def SearchSpec.ofXml (text : String) : Except SavedSearchError SearchSpec := do
  SavedSearch.readSearch (← elementOfXml true text)

end WordFinder
