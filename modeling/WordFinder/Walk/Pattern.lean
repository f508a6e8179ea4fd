import WordFinder.MatchSet
import WordFinder.Pattern
import WordFinder.Trie
import WordFinder.Walk
import WordFinder.Walk.Limits

/-!
# Walking a trie with a pattern

A state of the walk is a place in the trie together with the tokens left to match. A star may be
skipped or may take a letter and stay. Letters that a token other than a letter has matched are
marked by lower case.

A pattern that starts with a star and ends otherwise is matched backwards, over the trie of the
reversed words.
-/
set_option autoImplicit false

namespace WordFinder

structure PatternState where
  /-- The nodes that the next letter is chosen from. -/
  chain : Trie
  /-- The letters chosen so far with their marks, last letter first. -/
  spelled : List Char
  tokens : List Token

namespace PatternState

def mark : Token → Char → Char
  | .letter c, _ => c
  | _, c => c.toLower

def tokensAfter : List Token → List Token
  | .star :: tokens => .star :: tokens
  | tokens => tokens.tail

def choices (limits : WalkLimits) (s : PatternState) : List TrieNode :=
  match s.tokens.head? with
  | none => []
  | some token =>
    s.chain.siblings.filter fun n =>
      token.accepts n.letter && limits.allows n.letter && limits.continues s.spelled.length

def choose (s : PatternState) (n : TrieNode) : PatternState where
  chain := n.child
  spelled := (s.tokens.head?.map fun token => mark token n.letter).toList ++ s.spelled
  tokens := tokensAfter s.tokens

def isComplete (limits : WalkLimits) (s : PatternState) (n : TrieNode) : Bool :=
  n.isEnd && limits.minLength ≤ s.spelled.length && Pattern.onlyStars s.tokens

def isOpen (limits : WalkLimits) (s : PatternState) : Bool :=
  !s.chain.isEmpty && limits.continues s.spelled.length && !s.tokens.isEmpty

def skipStar (s : PatternState) : List PatternState :=
  match s.tokens with
  | .star :: token :: tokens => [{ s with tokens := token :: tokens }]
  | _ => []

def next (limits : WalkLimits) (s : PatternState) : List PatternState :=
  s.skipStar ++ ((s.choices limits).map s.choose).filter (·.isOpen limits)

def visit (limits : WalkLimits) (found : MatchSet) (s : PatternState) : MatchSet :=
  (s.choices limits).foldl
    (fun found n =>
      if (s.choose n).isComplete limits n then
        found.insert (.ofList (s.choose n).spelled.reverse)
      else found)
    found

def sumBelow (f : Trie → Nat) : Trie → Nat
  | .nil => 0
  | .node _ _ child next => f child + sumBelow f next

/-- The weight of the states that a star leads to by taking letters, if skipping it at a chain
leads to a state of weight `f`. -/
def starBelow (f : Trie → Nat) : Trie → Nat
  | .nil => 0
  | .node _ _ child next => 1 + f child + starBelow f child + starBelow f next

def weightAt : List Token → Trie → Nat
  | [], _ => 1
  | .star :: tokens, chain => 1 + weightAt tokens chain + starBelow (weightAt tokens) chain
  | _ :: tokens, chain => 1 + sumBelow (weightAt tokens) chain

def weight (s : PatternState) : Nat :=
  weightAt s.tokens s.chain

theorem totalOf_siblings (f : Trie → Nat) (chain : Trie) :
    totalOf (fun n => f n.child) chain.siblings = sumBelow f chain := by
  induction chain with
  | nil => rfl
  | node letter isEnd child next _ ih => simp only [Trie.siblings, sumBelow, totalOf, ih]

theorem starBelow_eq_sumBelow (f : Trie → Nat) (chain : Trie) :
    starBelow f chain = sumBelow (fun child => 1 + f child + starBelow f child) chain := by
  induction chain with
  | nil => rfl
  | node letter isEnd child next _ ih => simp only [starBelow, sumBelow]; omega

theorem weight_choices_le (limits : WalkLimits) (s : PatternState) :
    totalOf weight (((s.choices limits).map s.choose).filter (·.isOpen limits))
      ≤ if s.tokens = [] then 0 else sumBelow (weightAt (tokensAfter s.tokens)) s.chain := by
  refine Nat.le_trans (totalOf_filter_le _ _ _) ?_
  rw [totalOf_map, choices]
  cases htokens : s.tokens with
  | nil => simp [totalOf]
  | cons token tokens =>
    simp only [List.head?_cons, reduceCtorEq, if_false]
    refine Nat.le_trans (totalOf_filter_le _ _ _) ?_
    rw [← totalOf_siblings]
    simp [weight, choose, htokens]

theorem weight_next (limits : WalkLimits) (s : PatternState) :
    totalOf weight (s.next limits) < s.weight := by
  have h := weight_choices_le limits s
  rw [next, totalOf_append]
  obtain ⟨chain, spelled, tokens⟩ := s
  cases tokens with
  | nil => simp [skipStar, weight, weightAt, choices, totalOf]
  | cons token tokens =>
    cases token with
    | star =>
      have hskip : totalOf weight (skipStar ⟨chain, spelled, .star :: tokens⟩)
          ≤ weightAt tokens chain := by
        cases tokens <;> simp [skipStar, weight, totalOf]
      simp only [reduceCtorEq, if_false, tokensAfter] at h
      simp only [weight, weightAt] at h ⊢
      rw [starBelow_eq_sumBelow]
      omega
    | _ =>
      simp only [reduceCtorEq, if_false, tokensAfter, List.tail_cons] at h
      simp only [skipStar, weight, weightAt, totalOf] at h ⊢
      omega

end PatternState

namespace Pattern

def walk (limits : WalkLimits) : Walk PatternState MatchSet where
  visit := PatternState.visit limits
  next := PatternState.next limits
  weight := PatternState.weight
  weight_next := PatternState.weight_next limits

def matchesIn (p : Pattern) (limits : WalkLimits) (t : Trie) : MatchSet :=
  (walk limits).run .empty [⟨t, [], p.tokens⟩]

def readBackwards (spelling : String) : String :=
  .ofList spelling.toList.reverse

/-- The words that the pattern matches, found over the trie of the words or over that of the
reversed words. -/
def matchesInBoth (p : Pattern) (limits : WalkLimits) (forward backward : Trie) : MatchSet :=
  if p.isSuffixAnchored then
    .ofSpellings ((p.reversed.matchesIn limits backward).markedSpellings.map readBackwards)
  else p.matchesIn limits forward

end Pattern

end WordFinder
