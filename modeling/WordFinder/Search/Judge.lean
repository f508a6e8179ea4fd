import Std.Data.HashMap
import WordFinder.Search.Verdict

/-!
# Judges

A judge gives verdicts on many words and remembers what is expensive to work out: how search strings
read, how many anagrams an alphagram has, and the probability order of each length. What it
remembers changes no verdict.
-/
set_option autoImplicit false

namespace WordFinder

structure Memory where
  patterns : Std.HashMap String (Option Pattern) := ∅
  racks : Std.HashMap String (Option Rack) := ∅
  anagramCounts : Std.HashMap String Nat := ∅
  orders : Std.HashMap (Nat × Int32) ProbabilityOrder := ∅

/-- The value remembered under a key. If there is none, the value is worked out and remembered. -/
def remembered {κ β : Type} [BEq κ] [Hashable κ] (known : Std.HashMap κ β) (key : κ)
    (workOut : Unit → β) : β × Std.HashMap κ β :=
  match known[key]? with
  | some value => (value, known)
  | none => let value := workOut (); (value, known.insert key value)

namespace Lexicon

def judge (x : Lexicon) (word : String) (c : Condition) : StateM Memory Bool := fun memory =>
  match c.kind with
  | .patternMatch =>
    let (p?, patterns) := remembered memory.patterns c.string fun _ => Pattern.ofString? c.string
    (c.patternVerdict p? word, { memory with patterns })
  | .anagramMatch | .subanagramMatch =>
    let (rack?, racks) := remembered memory.racks c.string fun _ => Rack.ofString? c.string
    (c.rackVerdict rack? word, { memory with racks })
  | .anagramCount =>
    let (count, anagramCounts) :=
      remembered memory.anagramCounts (alphagram word) fun _ => x.anagramCount word
    (c.admits count, { memory with anagramCounts })
  | .probabilityOrder =>
    let (order, orders) :=
      remembered memory.orders (word.length, c.blanks) fun _ =>
        x.orderOfLength word.length c.blanks
    (c.orderVerdict order word, { memory with orders })
  | _ => (x.meets word c, memory)

def judgeAll (x : Lexicon) (word : String) (conditions : List Condition) : StateM Memory Bool :=
  conditions.allM (x.judge word)

def judgeAny (x : Lexicon) (word : String) (conditions : List Condition) : StateM Memory Bool :=
  conditions.anyM (x.judge word)

def judgeSpec (x : Lexicon) (word : String) (spec : SearchSpec) : StateM Memory Bool :=
  if spec.conditions.isEmpty then pure false
  else if spec.conjunction then x.judgeAll word spec.conditions
  else x.judgeAny word spec.conditions

end Lexicon

end WordFinder
