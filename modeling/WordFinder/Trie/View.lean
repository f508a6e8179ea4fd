import WordFinder.Trie
import WordFinder.Trie.Arena

/-!
# Views of tries

What a walk sees of a trie, however the trie is kept: the nodes of a chain, and whether there are
any. A chain that cannot be listed has no nodes as a result.
-/
set_option autoImplicit false

namespace WordFinder

/-- One node of a chain of kind `κ`, with the chain below it. -/
structure ChainNode (κ : Type) where
  letter : Char
  isEnd : Bool
  child : κ

structure TrieView (κ : Type) where
  siblings? : κ → Option (List (ChainNode κ))
  isEmpty : κ → Bool

def Trie.view : TrieView Trie where
  siblings? t := some (t.siblings.map fun n => ⟨n.letter, n.isEnd, n.child⟩)
  isEmpty := Trie.isEmpty

def Arena.view (a : Arena) : TrieView (Option NodeIndex) where
  siblings? link :=
    (a.siblings? link).map fun chain =>
      chain.map fun (_, n) => ⟨n.letter, n.isEnd, n.child⟩
  isEmpty := Option.isNone

end WordFinder
