import WordFinder.CommandLine.Error
import WordFinder.Search.Spec

/-!
# Search options

The search that a command line asks for by its options, one condition for each option given.
-/
set_option autoImplicit false

namespace WordFinder

structure SearchOptions where
  pattern : Option String := none
  anagram : Option String := none
  subanagram : Option String := none
  /-- A length or a range of lengths, `N` or `MIN-MAX`. -/
  length : Option String := none
  included : Option String := none
  excluded : Option String := none
  frontHook : Option String := none
  backHook : Option String := none
  group : Option String := none
  any : Bool := false
deriving DecidableEq, Repr

namespace SearchOptions

def readLength (text : String) : Except CommandError (Int32 × Int32) :=
  let read := fun part =>
    (Text.readInt32 (Text.trim part)).mapError (CommandError.invalidLength text)
  match Text.splitAtFirst '-' text with
  | some (min, max) => do return (← read min, ← read max)
  | none => do
    let n ← read text
    return (n, n)

def lengthCondition (o : SearchOptions) : Except CommandError (List Condition) :=
  match o.length with
  | some text => do
    let (min, max) ← readLength text
    return [.ofRange .length min max]
  | none => .ok []

def textConditions (o : SearchOptions) : List Condition :=
  (o.pattern.map (.ofText .patternMatch)).toList
    ++ (o.anagram.map (.ofText .anagramMatch)).toList
    ++ (o.subanagram.map (.ofText .subanagramMatch)).toList
    ++ (o.included.map (.ofText .includesLetters)).toList
    ++ (o.excluded.map fun letters => (Condition.ofText .includesLetters letters).negate).toList
    ++ (o.frontHook.map (.ofText .takesPrefix)).toList
    ++ (o.backHook.map (.ofText .takesSuffix)).toList
    ++ (o.group.map (.ofText .belongsToGroup)).toList

def spec (o : SearchOptions) : Except CommandError SearchSpec := do
  let conditions := o.textConditions ++ (← o.lengthCondition)
  if conditions.isEmpty then throw .noConditions
  return { conditions, conjunction := !o.any }

end SearchOptions

def SearchSpec.ofFile (file : String) (content : Except FileError String) :
    Except CommandError SearchSpec := do
  let text ← content.mapError (.searchUnreadable file)
  (SearchSpec.ofXml text).mapError (.searchMalformed file)

end WordFinder
