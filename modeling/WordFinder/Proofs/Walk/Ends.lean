import Mathlib
import WordFinder.Proofs.Walk.PatternLoop
import WordFinder.Proofs.Walk.RackLoop

/-!
# Walks end

Over the trie of any inserted words the loops of all walks empty their stacks after finitely many
turns, none of which runs into a fault. What they have found by then is what the walks find.
-/
set_option autoImplicit false

namespace WordFinder

variable {κ : Type}

/-- Over a trie seen through a view the loop of every walk ends, with what the walk finds. -/
structure WalksEnd (view : TrieView κ) (root : κ) (t : Trie) : Prop where
  pattern (p : Pattern) (limits : WalkLimits) :
    ∃ n, (p.loopFrom root).after? (p.turn? view limits) n = some ⟨[], p.matchesIn limits t⟩
  rack (text : String) (tokens : List Token) (read : Token.ofString? text = some tokens) :
    ∃ rack, CountedRack.ofTokens? tokens = some rack ∧
      ∀ (subanagram : Bool) (limits : WalkLimits),
        ∃ n, (rack.loopFrom root).after? (rack.turn? view subanagram limits) n =
          some ⟨[], (Rack.ofTokens tokens).wordsIn subanagram limits t⟩

theorem TrieView.Shows.walksEnd {view : TrieView κ} {holds : κ → Trie → Prop}
    (shows : view.Shows holds) {root : κ} {t : Trie} (top : holds root t) :
    WalksEnd view root t where
  pattern p limits := Pattern.loop_ends shows top
  rack text tokens read := by
    obtain ⟨rack, built, same⟩ := CountedRack.exists_ofString? read
    exact ⟨rack, built, fun subanagram limits =>
      CountedRack.loop_ends same shows subanagram limits top⟩

/-- All walks end over the trie of any words, and over the arena of any words whose nodes can be
numbered. -/
theorem walksEnd_ofWords (words : List String) :
    WalksEnd Trie.view (Trie.ofWords words) (Trie.ofWords words) ∧
      ((Trie.ofWords words).nodeCount < 2 ^ 32 →
        ∃ a, Arena.ofWords? words = some a ∧ WalksEnd a.view a.root (Trie.ofWords words)) := by
  refine ⟨Trie.shows_view.walksEnd rfl, fun few => ?_⟩
  obtain ⟨a, built, holds⟩ := Arena.exists_holds_ofWords few
  exact ⟨a, built, a.shows_view.walksEnd holds⟩

/-- A pattern with two stars and a rack with a star, over an arena of three words. -/
theorem walksEnd_ofWords_starred :
    let words := ["CATS", "CAT", "ACT"]
    let p : Pattern := ⟨[.star, .letter 'A', .star]⟩
    (Trie.ofWords words).nodeCount < 2 ^ 32 ∧ Token.ofString? "T*" = some [.letter 'T', .star] ∧
      ∃ a, Arena.ofWords? words = some a ∧
        (∃ n found, (p.loopFrom a.root).after? (p.turn? a.view {}) n = some ⟨[], found⟩) ∧
          ∃ rack, CountedRack.ofTokens? [.letter 'T', .star] = some rack ∧
            ∃ n found, (rack.loopFrom a.root).after? (rack.turn? a.view true {}) n =
              some ⟨[], found⟩ := by
  intro words p
  have few : (Trie.ofWords words).nodeCount < 2 ^ 32 := by decide
  have read : Token.ofString? "T*" = some [.letter 'T', .star] := by decide
  obtain ⟨a, built, ends⟩ := (walksEnd_ofWords words).2 few
  obtain ⟨n, ended⟩ := ends.pattern p {}
  obtain ⟨rack, counted, rackEnds⟩ := ends.rack "T*" _ read
  obtain ⟨m, rackEnded⟩ := rackEnds true {}
  exact ⟨few, read, a, built, ⟨n, _, ended⟩, rack, counted, m, _, rackEnded⟩

end WordFinder
