import WordFinder.Rack.Counted
import WordFinder.Trie.View
import WordFinder.Walk.Loop
import WordFinder.Walk.Rack

/-!
# The loop of a rack walk

The states of the loop count: a state holds a chain, the spelling so far with its length, how many
slots are left for each letter and for any letter, and in 32 bits which of the classes are used.
-/
set_option autoImplicit false

namespace WordFinder

structure RackPlace (κ : Type) where
  chain : κ
  word : String
  length : Nat
  letters : Vector UInt8 26
  blanks : UInt8
  used : BitVec 32

inductive Consumption where
  | letterSlot (i : Fin 26)
  | classSlot (i : Nat)
  | blank
  | free
deriving DecidableEq, Repr

/-- The word with one bit set. There is no such word for a bit that it does not have. -/
def bit? (i : Nat) : Option (BitVec 32) :=
  if i < 32 then some (1#32 <<< i) else none

def bitCount (used : BitVec 32) : Nat :=
  (List.range 32).countP used.getLsbD

/-- The classes of a list, each with its index, that are not used and accept a letter. Of equal
classes only the first is taken. -/
def classOptions? (used : BitVec 32) (c : Char) (seen : List LetterClass) :
    List (LetterClass × Nat) → Option (List Consumption)
  | [] => some []
  | (k, i) :: classes => do
    let bit ← bit? i
    if used &&& bit = 0 && k.accepts c && !seen.contains k then
      let others ← classOptions? used c (seen ++ [k]) classes
      return .classSlot i :: others
    else classOptions? used c seen classes

namespace CountedRack

variable {κ : Type}

def consumptions? (rack : CountedRack) (s : RackPlace κ) (c : Char) :
    Option (List Consumption) := do
  let i ← letterIndex? c
  if s.letters.get i > 0 then return [.letterSlot i]
  let classes ← classOptions? s.used c [] rack.classes.zipIdx
  let options := classes ++ if s.blanks > 0 then [.blank] else []
  return if options.isEmpty && rack.star then [.free] else options

def consume? (s : RackPlace κ) (n : ChainNode κ) : Consumption → Option (RackPlace κ)
  | .letterSlot i => do
    let left ← decreased? (s.letters.get i)
    return { s with
      chain := n.child, word := s.word.push n.letter, length := s.length + 1
      letters := withCount s.letters i left }
  | .classSlot i => do
    let bit ← bit? i
    return { s with
      chain := n.child, word := s.word.push n.letter.toLower, length := s.length + 1
      used := s.used ||| bit }
  | .blank => do
    let left ← decreased? s.blanks
    return { s with
      chain := n.child, word := s.word.push n.letter.toLower, length := s.length + 1
      blanks := left }
  | .free =>
    some { s with chain := n.child, word := s.word.push n.letter.toLower, length := s.length + 1 }

def slotsLeft? (rack : CountedRack) (s : RackPlace κ) : Option Nat :=
  if bitCount s.used ≤ rack.classes.length then
    some (countSum s.letters + s.blanks.toNat + (rack.classes.length - bitCount s.used))
  else none

/-- A node chosen at a place, what supplies its letter, where that leads to, and the number of slots
left there. -/
structure Choice (κ : Type) where
  node : ChainNode κ
  supply : Consumption
  later : RackPlace κ
  left : Nat

def choicesFor? (rack : CountedRack) (s : RackPlace κ) (n : ChainNode κ) :
    Option (List (Choice κ)) := do
  let supplies ← rack.consumptions? s n.letter
  supplies.mapM fun supply => do
    let later ← consume? s n supply
    let left ← rack.slotsLeft? later
    return ⟨n, supply, later, left⟩

def choices? (rack : CountedRack) (view : TrieView κ) (limits : WalkLimits) (s : RackPlace κ) :
    Option (List (Choice κ)) := do
  let chain ← view.siblings? s.chain
  let allowed := chain.filter fun n =>
    n.letter.isUpper && limits.allows n.letter && s.length + 1 ≤ limits.maxLength
  let choices ← allowed.mapM (rack.choicesFor? s)
  return choices.flatten

def isPushed (rack : CountedRack) (view : TrieView κ) (limits : WalkLimits) (choice : Choice κ) :
    Bool :=
  !view.isEmpty choice.later.chain && choice.later.length < limits.maxLength &&
    (choice.left != 0 || rack.star)

def turn? (rack : CountedRack) (view : TrieView κ) (subanagram : Bool) (limits : WalkLimits)
    (s : RackPlace κ) : Option (Turn (RackPlace κ)) := do
  let choices ← rack.choices? view limits s
  let found := choices.filter fun choice =>
    choice.node.isEnd && (subanagram || choice.left == 0) &&
      limits.minLength ≤ choice.later.length
  let pushed := choices.filter (rack.isPushed view limits)
  return ⟨found.map fun choice => choice.later.word, pushed.map Choice.later⟩

def start (rack : CountedRack) (root : κ) : RackPlace κ :=
  ⟨root, "", 0, rack.letters, rack.blanks, 0⟩

/-- The loop before its first turn. A rack without slots and star and a rack with too many classes
have nothing to do. -/
def loopFrom (rack : CountedRack) (root : κ) : Pending (RackPlace κ) where
  stack :=
    if (rack.slotCount == 0 && !rack.star) || Rack.maxClasses < rack.classes.length then []
    else [rack.start root]

end CountedRack

end WordFinder
