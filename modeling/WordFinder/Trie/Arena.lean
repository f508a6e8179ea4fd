import Mathlib

/-!
# Tries in an arena

An arena keeps the nodes of a trie in one array, in the order in which they were made. A node links
to the next node of its chain and to the first node of the chain below it by their numbers, which
have 32 bits. A link out of the array and a chain without end have no result.
-/
set_option autoImplicit false

namespace WordFinder

abbrev NodeIndex := UInt32

structure ArenaNode where
  letter : Char
  isEnd : Bool
  next : Option NodeIndex
  child : Option NodeIndex
deriving DecidableEq, Repr

structure Arena where
  nodes : Array ArenaNode := #[]
  root : Option NodeIndex := none
  wordCount : Nat := 0
deriving DecidableEq, Repr

namespace Arena

def empty : Arena := {}

def node? (a : Arena) (i : NodeIndex) : Option ArenaNode :=
  a.nodes[i.toNat]?

def siblings? (a : Arena) (link : Option NodeIndex) : Option (List (NodeIndex × ArenaNode)) :=
  if link.isNone then some []
  else do
    let i ← link
    let n ← a.node? i
    let others ← a |>.siblings? n.next
    return (i, n) :: others
partial_fixpoint

theorem siblings?_none (a : Arena) : a.siblings? none = some [] := by
  rw [siblings?]
  rfl

theorem siblings?_some (a : Arena) (i : NodeIndex) :
    a.siblings? (some i) = do
      let n ← a.node? i
      let others ← a.siblings? n.next
      return (i, n) :: others := by
  rw [siblings?]
  rfl

def find? (a : Arena) (link : Option NodeIndex) (c : Char) : Option (Option NodeIndex) := do
  let chain ← a.siblings? link
  return (chain.find? fun sibling => sibling.2.letter == c).map Prod.fst

def update? (a : Arena) (i : NodeIndex) (change : ArenaNode → ArenaNode) : Option Arena :=
  if i.toNat < a.nodes.size then some { a with nodes := a.nodes.modify i.toNat change } else none

/-- A new node at the end of a chain, which may be empty, and its number. The chain hangs below
`parent`, or at the root. -/
def append? (a : Arena) (link parent : Option NodeIndex) (c : Char) :
    Option (Arena × NodeIndex) := do
  let i := a.nodes.size.toUInt32
  let a := { a with nodes := a.nodes.push ⟨c, false, none, none⟩ }
  let chain ← a.siblings? link
  let a ← match chain.getLast?, parent with
    | some (last, _), _ => a.update? last fun n => { n with next := some i }
    | none, some parent => a.update? parent fun n => { n with child := some i }
    | none, none => some { a with root := some i }
  return (a, i)

/-- The node at the end of a word is marked; the empty word has none. -/
def endWord? (a : Arena) : Option NodeIndex → Option Arena
  | none => some a
  | some i => do
    let n ← a.node? i
    if n.isEnd then return a
    else
      let a ← a.update? i fun n => { n with isEnd := true }
      return { a with wordCount := a.wordCount + 1 }

/-- The arena with the letters of a word along a chain and below it. The chain hangs below `parent`,
or at the root. -/
def insertFrom? (a : Arena) (link parent : Option NodeIndex) : List Char → Option Arena
  | [] => a.endWord? parent
  | c :: word => do
    let (a, i) ← match ← a.find? link c with
      | some i => some (a, i)
      | none => a.append? link parent c
    let n ← a.node? i
    a.insertFrom? n.child (some i) word

def insert? (a : Arena) (word : List Char) : Option Arena :=
  a.insertFrom? a.root none word

def ofWords? (words : List String) : Option Arena :=
  words.foldlM (fun a word => a.insert? word.toList) empty

def containsFrom? (a : Arena) (link last : Option NodeIndex) : List Char → Option Bool
  | [] =>
    match last with
    | none => some false
    | some i => (a.node? i).map ArenaNode.isEnd
  | c :: word => do
    match ← a.find? link c with
    | none => return false
    | some i =>
      let n ← a.node? i
      a.containsFrom? n.child (some i) word

def contains? (a : Arena) (word : List Char) : Option Bool :=
  a.containsFrom? a.root none word

end Arena

end WordFinder
