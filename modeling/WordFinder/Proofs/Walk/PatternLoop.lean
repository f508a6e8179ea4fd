import Mathlib
import WordFinder.Proofs.Walk.Loop
import WordFinder.Walk.PatternLoop

/-!
# The loop of a pattern walk ends

The loop follows the walk over the trie that its view shows, turn by turn, so it ends with what the
walk finds.
-/
set_option autoImplicit false

namespace WordFinder

variable {κ : Type} {view : TrieView κ} {holds : κ → Trie → Prop} {p : Pattern}
  {limits : WalkLimits} {s : PatternPlace κ} {t : PatternState}

structure PatternPlace.StandsFor (holds : κ → Trie → Prop) (p : Pattern) (s : PatternPlace κ)
    (t : PatternState) : Prop where
  chain : holds s.chain t.chain
  word : s.word.toList = t.spelled.reverse
  length : s.length = t.spelled.length
  tokens : t.tokens = p.tokens.drop s.position

namespace PatternPlace.StandsFor

theorem tokensAfter (same : s.StandsFor holds p t) {token : Token}
    (found : p.tokens[s.position]? = some token) :
    PatternState.tokensAfter t.tokens =
      p.tokens.drop (if token = .star then s.position else s.position + 1) := by
  obtain ⟨inside, rfl⟩ := List.getElem?_eq_some_iff.mp found
  rw [same.tokens, List.drop_eq_getElem_cons inside]
  cases equal : p.tokens[s.position] with
  | star => rw [PatternState.tokensAfter, if_pos rfl, List.drop_eq_getElem_cons inside, equal]
  | _ => rw [if_neg (by simp), PatternState.tokensAfter, List.tail_cons]; simp

theorem head? (same : s.StandsFor holds p t) : t.tokens.head? = p.tokens[s.position]? := by
  rw [same.tokens, List.head?_drop]

theorem choose (same : s.StandsFor holds p t) {token : Token}
    (found : p.tokens[s.position]? = some token) {n : ChainNode κ} {m : TrieNode}
    (letter : n.letter = m.letter) (below : holds n.child m.child) :
    (s.choose token (if token = .star then s.position else s.position + 1) n).StandsFor holds p
      (t.choose m) where
  chain := below
  word := by
    rw [PatternState.choose, same.head?, found, PatternPlace.choose, String.toList_push, same.word,
      letter]
    simp
  length := by
    rw [PatternState.choose, same.head?, found, PatternPlace.choose, same.length]
    simp
  tokens := same.tokensAfter found

theorem skip (same : s.StandsFor holds p t) {token : Token}
    (found : p.tokens[s.position]? = some token) :
    List.Forall₂ (StandsFor holds p)
      (if token = .star ∧ s.position + 1 < p.tokens.length then
        [{ s with position := s.position + 1 }]
      else [])
      t.skipStar := by
  obtain ⟨inside, rfl⟩ := List.getElem?_eq_some_iff.mp found
  have tokens := same.tokens
  rw [List.drop_eq_getElem_cons inside] at tokens
  rw [PatternState.skipStar, tokens]
  cases equal : p.tokens[s.position] with
  | star =>
    cases rest : p.tokens.drop (s.position + 1) with
    | nil =>
      have last := List.drop_eq_nil_iff.mp rest
      rw [if_neg (by omega)]
      exact List.Forall₂.nil
    | cons next others =>
      have more : s.position + 1 < p.tokens.length := by
        by_contra last
        rw [List.drop_eq_nil_of_le (by omega)] at rest
        contradiction
      rw [if_pos ⟨rfl, more⟩]
      exact List.Forall₂.cons ⟨same.chain, same.word, same.length, rest.symm⟩ List.Forall₂.nil
  | _ => exact List.Forall₂.nil

theorem choices (same : s.StandsFor holds p t) (limits : WalkLimits) {token : Token}
    (found : p.tokens[s.position]? = some token) {chain : List (ChainNode κ)}
    (alike : List.Forall₂ (fun n m => n.letter = m.letter ∧ n.isEnd = m.isEnd ∧
      holds n.child m.child) chain t.chain.siblings) :
    List.Forall₂ (fun n m => n.letter = m.letter ∧ n.isEnd = m.isEnd ∧ holds n.child m.child)
      (chain.filter fun n =>
        token.accepts n.letter && limits.allows n.letter && s.length + 1 ≤ limits.maxLength)
      (t.choices limits) := by
  rw [PatternState.choices, same.head?, found]
  refine List.rel_filter (fun n m equal => ?_) alike
  have short : s.length + 1 ≤ limits.maxLength ↔ limits.continues t.spelled.length = true := by
    rw [WalkLimits.continues, decide_eq_true_eq, same.length, Nat.succ_le_iff]
  simp only [equal.1, Bool.and_eq_true, decide_eq_true_eq, short]

theorem spelling (same : s.StandsFor holds p t) : s.word = .ofList t.spelled.reverse := by
  rw [← same.word, String.ofList_toList]

theorem isComplete (same : s.StandsFor holds p t) {n : ChainNode κ} {m : TrieNode}
    (ends : n.isEnd = m.isEnd) :
    (n.isEnd && limits.minLength ≤ s.length && p.isExhaustedAt s.position) =
      t.isComplete limits m := by
  rw [PatternState.isComplete, ends, same.length, same.tokens, Pattern.isExhaustedAt]

theorem isOpen (same : s.StandsFor holds p t) (limits : WalkLimits) (shows : view.Shows holds) :
    (!view.isEmpty s.chain && s.length < limits.maxLength && s.position < p.tokens.length) =
      t.isOpen limits := by
  rw [PatternState.isOpen, shows.isEmpty _ _ same.chain, same.length, same.tokens,
    WalkLimits.continues]
  congr 1
  rw [Bool.eq_iff_iff]
  simp

end PatternPlace.StandsFor

theorem Pattern.turn?_follows (shows : view.Shows holds) :
    Pending.Follows (p.turn? view limits) (Pattern.walk limits)
      (PatternPlace.StandsFor holds p) := by
  intro s t same
  rw [Pattern.turn?]
  cases here : p.tokens[s.position]? with
  | none =>
    have noToken : t.tokens = [] := by rw [← List.head?_eq_none_iff, same.head?, here]
    refine ⟨_, rfl, fun _ => ?_, ?_⟩
    · simp [walk, PatternState.visit, PatternState.choices, noToken]
    · simp [walk, PatternState.next, PatternState.choices, PatternState.skipStar, noToken]
  | some token =>
    obtain ⟨chain, listed, alike⟩ := shows.siblings _ _ same.chain
    have taken := same.choices limits here alike
    simp only [listed, Option.bind_eq_bind, Option.bind_some, Option.pure_def]
    refine ⟨_, rfl, fun found => ?_, List.rel_append (same.skip here) ?_⟩
    · refine MatchSet.foldl_insert_picked (List.forall₂_map_left_iff.mpr ?_) found
      refine taken.imp fun n m alike => ?_
      have later := same.choose here alike.1 alike.2.2
      exact ⟨later.isComplete alike.2.1, later.spelling⟩
    · have places := List.forall₂_map_left_iff (f := s.choose token
          (if token = .star then s.position else s.position + 1)) (R := fun later state =>
            later.StandsFor holds p state ∧
              later.position = if token = .star then s.position else s.position + 1) |>.mpr
        (List.forall₂_map_right_iff (f := t.choose) |>.mpr (taken.imp fun n m alike =>
            ⟨same.choose here alike.1 alike.2.2, rfl⟩))
      rw [List.map_map]
      refine (List.rel_filter (fun later state stands => ?_) places).imp fun _ _ stands => stands.1
      have isOpen := stands.1.isOpen limits shows
      rw [stands.2] at isOpen
      exact Bool.eq_iff_iff.mp isOpen

theorem Pattern.loop_ends (shows : view.Shows holds) {root : κ} {t : Trie} (top : holds root t) :
    ∃ n, (p.loopFrom root).after? (p.turn? view limits) n = some ⟨[], p.matchesIn limits t⟩ := by
  rw [loopFrom, matchesIn]
  cases tokens : p.tokens with
  | nil =>
    have nothing : (walk limits).run .empty [⟨t, [], []⟩] = .empty := by
      simp [Walk.run, Walk.push, walk, PatternState.visit, PatternState.next, PatternState.choices,
        PatternState.skipStar]
    exact ⟨0, by rw [nothing]; rfl⟩
  | cons token rest =>
    have start : PatternPlace.StandsFor holds p ⟨root, "", 0, 0⟩ ⟨t, [], p.tokens⟩ :=
      ⟨top, rfl, rfl, rfl⟩
    rw [List.isEmpty_cons, if_neg Bool.false_ne_true, ← tokens]
    exact (turn?_follows shows).ends (List.Forall₂.cons start List.Forall₂.nil)

end WordFinder
