import WordFinder.Condition.Kind

/-!
# Conditions

A condition is a kind together with the values that kind reads. Values that a kind does not read
stay at their defaults.
-/
set_option autoImplicit false

namespace WordFinder

structure Condition where
  kind : ConditionKind
  /-- A search string, letters, a group, a lexicon, a word list or a text. -/
  string : String := ""
  min : Int32 := 0
  max : Int32 := 0
  blanks : Int32 := 0
  negated : Bool := false
  /-- Whether ranks that a word ties for count as its own. -/
  lax : Bool := false
  /-- Whether the condition was saved when its kind had another meaning. -/
  legacy : Bool := false
deriving DecidableEq, Repr

namespace Condition

def ofText (kind : ConditionKind) (string : String) : Condition :=
  { kind, string }

def ofRange (kind : ConditionKind) (min max : Int32) : Condition :=
  { kind, min, max }

def negate (c : Condition) : Condition :=
  { c with negated := !c.negated }

/-- Whether the condition is answered by walking a trie. A negated one is checked word by word
instead. -/
def isMatch (c : Condition) : Bool :=
  c.kind.isMatch && !c.negated

def boundsText (c : Condition) : String :=
  "Min " ++ toString c.min.toInt ++ ", Max " ++ toString c.max.toInt

def blanksText (c : Condition) : String :=
  " (" ++ toString c.blanks.toInt ++ (if c.blanks = 1 then " blank)" else " blanks)")

/-- The values of a condition as they are shown. A word list is not shown. -/
def payloadText (c : Condition) : String :=
  match c.kind.payload with
  | .text => if c.kind = .inWordList then "..." else c.string
  | .range => c.boundsText
  | .probability => c.boundsText ++ c.blanksText
  | .order => c.boundsText ++ c.blanksText ++ (if c.lax then " (Lax)" else "")
  | .percentage =>
    "Min " ++ toString c.min.toInt ++ "%, Max " ++ toString c.max.toInt ++ "% " ++ c.string

def text (c : Condition) : String :=
  (if c.negated then "NOT " else "") ++ c.kind.name ++ ": " ++ c.payloadText

end Condition

end WordFinder
