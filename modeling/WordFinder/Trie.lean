/-!
# Letter tries

A trie is a chain of sibling nodes. Each node holds one letter, whether a word ends there, and the
chain of the letters that may follow it. A chain holds each letter at most once, in the order in
which the letters were first inserted.
-/
set_option autoImplicit false

namespace WordFinder

/-- The chain that starts with a node, or the chain without nodes. -/
inductive Trie where
  | nil
  | node (letter : Char) (isEnd : Bool) (child next : Trie)
deriving DecidableEq, Repr

/-- One node of a chain, without the nodes after it. -/
structure TrieNode where
  letter : Char
  isEnd : Bool
  child : Trie

namespace Trie

def isEmpty : Trie → Bool
  | nil => true
  | node .. => false

def siblings : Trie → List TrieNode
  | nil => []
  | node letter isEnd child next => ⟨letter, isEnd, child⟩ :: next.siblings

def ofWord : List Char → Trie
  | [] => nil
  | c :: word => node c word.isEmpty (ofWord word) nil

/-- The trie with one more word. A letter that the chain lacks is put at its end; the empty word
changes nothing. -/
def insert : List Char → Trie → Trie
  | [], t => t
  | c :: word, nil => ofWord (c :: word)
  | c :: word, node letter isEnd child next =>
    if letter = c then node letter (isEnd || word.isEmpty) (insert word child) next
    else node letter isEnd child (insert (c :: word) next)

def find? (c : Char) : Trie → Option TrieNode
  | nil => none
  | node letter isEnd child next => if letter = c then some ⟨letter, isEnd, child⟩ else find? c next

/-- Whether a word was inserted. The empty word never is. -/
def contains : List Char → Trie → Bool
  | [], _ => false
  | c :: word, t =>
    match t.find? c with
    | none => false
    | some found => if word.isEmpty then found.isEnd else contains word found.child

def nodeCount : Trie → Nat
  | nil => 0
  | node _ _ child next => 1 + child.nodeCount + next.nodeCount

def wordCount : Trie → Nat
  | nil => 0
  | node _ isEnd child next => isEnd.toNat + child.wordCount + next.wordCount

end Trie

end WordFinder
