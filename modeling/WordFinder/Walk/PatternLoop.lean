import WordFinder.Trie.View
import WordFinder.Walk.Loop
import WordFinder.Walk.Pattern

/-!
# The loop of a pattern walk

The states of the loop count: a state holds a chain, the spelling so far with its length, and the
position of the next token.
-/
set_option autoImplicit false

namespace WordFinder

structure PatternPlace (κ : Type) where
  chain : κ
  word : String
  length : Nat
  position : Nat

variable {κ : Type}

def PatternPlace.choose (s : PatternPlace κ) (token : Token) (position : Nat) (n : ChainNode κ) :
    PatternPlace κ where
  chain := n.child
  word := s.word.push (PatternState.mark token n.letter)
  length := s.length + 1
  position := position

namespace Pattern

def turn? (p : Pattern) (view : TrieView κ) (limits : WalkLimits) (s : PatternPlace κ) :
    Option (Turn (PatternPlace κ)) :=
  match p.tokens[s.position]? with
  | none => some ⟨[], []⟩
  | some token => do
    let position := if token = .star then s.position else s.position + 1
    let skipped :=
      if token = .star ∧ s.position + 1 < p.tokens.length then
        [{ s with position := s.position + 1 }]
      else []
    let chain ← view.siblings? s.chain
    let taken := (chain.filter fun n =>
        token.accepts n.letter && limits.allows n.letter && s.length + 1 ≤ limits.maxLength).map
      fun n => (n, s.choose token position n)
    let found := taken.filter fun (n, later) =>
      n.isEnd && limits.minLength ≤ later.length && p.isExhaustedAt position
    let pushed := (taken.map Prod.snd).filter fun later =>
      !view.isEmpty later.chain && later.length < limits.maxLength && position < p.tokens.length
    return ⟨found.map fun (_, later) => later.word, skipped ++ pushed⟩

/-- The loop before its first turn. Without tokens there is nothing to do. -/
def loopFrom (p : Pattern) (root : κ) : Pending (PatternPlace κ) where
  stack := if p.tokens.isEmpty then [] else [⟨root, "", 0, 0⟩]

end Pattern

end WordFinder
