import Mathlib
import WordFinder.Proofs.MatchSet
import WordFinder.Proofs.Pattern.Splits
import WordFinder.Proofs.Trie
import WordFinder.Proofs.Walk
import WordFinder.Walk.Pattern

/-!
# What pattern walks find

A walk over a trie of words in capital letters finds exactly the words that its pattern splits and
its limits admit. A state amounts to the words that go on from its place in the trie as its tokens
say.
-/
set_option autoImplicit false

namespace WordFinder

open Text (upper)

structure WalkLimits.Admits (limits : WalkLimits) (word : List Char) : Prop where
  long : limits.minLength ≤ word.length
  short : word.length ≤ limits.maxLength
  allowed : ∀ c ∈ word, limits.allows c = true

theorem WalkLimits.Admits.length_lt {limits : WalkLimits} {start rest : List Char} {c : Char}
    (admits : limits.Admits (start ++ c :: rest)) : start.length < limits.maxLength := by
  have short := admits.short
  rw [List.length_append, List.length_cons] at short
  omega

def Trie.IsCapital (t : Trie) : Prop :=
  ∀ word ∈ t.words, AreCapitals word

theorem Trie.IsCapital.child {t : Trie} (capital : t.IsCapital) {n : TrieNode}
    (member : n ∈ t.siblings) : n.child.IsCapital := by
  intro word below
  cases word with
  | nil => simp [AreCapitals]
  | cons c word =>
    have whole := capital (n.letter :: c :: word) (mem_words_iff.mpr ⟨n, member, rfl, below⟩)
    exact (areCapitals_cons.mp whole).2

namespace PatternState

variable {limits : WalkLimits} {s : PatternState} {word : List Char}

/-- The words that a state amounts to: what is spelled so far and a word of its chain. -/
def Totals (limits : WalkLimits) (s : PatternState) (word : List Char) : Prop :=
  ∃ rest, rest ∈ s.chain.words ∧ Pattern.Splits s.tokens rest ∧
    (∀ c ∈ rest, limits.allows c = true) ∧ limits.minLength ≤ s.spelled.length + rest.length ∧
      s.spelled.length + rest.length ≤ limits.maxLength ∧
        word = s.spelled.reverse.map Char.toUpper ++ rest

/-- The words that a state adds at once. -/
def Adds (limits : WalkLimits) (s : PatternState) (word : List Char) : Prop :=
  ∃ n ∈ s.choices limits, (s.choose n).isComplete limits n = true ∧
    word = (s.choose n).spelled.reverse.map Char.toUpper

theorem mem_choices_iff {n : TrieNode} :
    n ∈ s.choices limits ↔ ∃ token tokens, s.tokens = token :: tokens ∧ n ∈ s.chain.siblings ∧
      token.accepts n.letter = true ∧ limits.allows n.letter = true ∧
        s.spelled.length < limits.maxLength := by
  rw [choices]
  cases s.tokens with
  | nil => simp
  | cons token tokens =>
    simp [WalkLimits.continues, and_assoc]

theorem toUpper_mark {token : Token} {c : Char} (capital : c.isUpper = true)
    (accepted : token.accepts c = true) : (mark token c).toUpper = c := by
  cases token with
  | letter l =>
    rw [Token.accepts, beq_iff_eq] at accepted
    rw [mark, accepted, Text.toUpper_of_isUpper capital, Text.toUpper_of_isUpper capital]
  | any => exact Text.toUpper_toLower_of_isUpper capital
  | oneOf k => exact Text.toUpper_toLower_of_isUpper capital
  | star => exact Text.toUpper_toLower_of_isUpper capital

theorem spelled_choose {n : TrieNode} (capital : n.letter.isUpper = true)
    (chosen : n ∈ s.choices limits) :
    (s.choose n).spelled.reverse.map Char.toUpper =
        s.spelled.reverse.map Char.toUpper ++ [n.letter] ∧
      (s.choose n).spelled.length = s.spelled.length + 1 := by
  obtain ⟨token, tokens, split, _, accepted, _⟩ := mem_choices_iff.mp chosen
  have marked := toUpper_mark capital accepted
  constructor
  · simp [choose, split, marked]
  · simp [choose, split]

theorem tokensAfter_of_single {token : Token} {tokens : List Token} (single : token ≠ .star) :
    tokensAfter (token :: tokens) = tokens := by
  rw [tokensAfter.eq_2 _ fun _ same => single (List.cons.inj same).1, List.tail_cons]

theorem splits_cons_iff {token : Token} {tokens : List Token} {c : Char} {rest : List Char}
    (capital : c.isUpper = true) :
    Pattern.Splits (token :: tokens) (c :: rest) ↔
      (token = .star ∧ Pattern.Splits tokens (c :: rest)) ∨
        (token.accepts c = true ∧ Pattern.Splits (tokensAfter (token :: tokens)) rest) := by
  by_cases star : token = .star
  · rw [star, Pattern.splits_star_cons_iff]
    simp [tokensAfter, Token.accepts, Text.isAlpha_of_isUpper capital]
  · rw [Pattern.splits_letter_iff star, tokensAfter_of_single star]
    simp [star]

theorem mem_skipStar_iff {later : PatternState} :
    later ∈ s.skipStar ↔ ∃ tokens, tokens ≠ [] ∧ s.tokens = .star :: tokens ∧
      later = { s with tokens } := by
  rw [skipStar]
  split
  · next token tokens split =>
    rw [List.mem_singleton, split]
    constructor
    · rintro rfl
      exact ⟨token :: tokens, List.cons_ne_nil _ _, rfl, rfl⟩
    · intro holds
      obtain ⟨_, _, same, rfl⟩ := holds
      rw [List.cons.injEq] at same
      rw [same.2]
  · next other =>
    constructor
    · exact fun member => absurd member List.not_mem_nil
    · intro holds
      obtain ⟨tokens, nonempty, same, _⟩ := holds
      obtain ⟨token, tokens, rfl⟩ := List.exists_cons_of_ne_nil nonempty
      exact absurd same (other token tokens)

theorem isOpen_of_totals (totals : s.Totals limits word) : s.isOpen limits = true := by
  obtain ⟨rest, member, splits, _, _, short, _⟩ := totals
  obtain ⟨c, rest, rfl⟩ := Trie.exists_cons_of_mem_words member
  have someToken : s.tokens ≠ [] := by
    intro none
    rw [none, Pattern.splits_nil_iff] at splits
    exact List.cons_ne_nil _ _ splits
  have nodes : s.chain.isEmpty = false := Trie.isEmpty_of_mem_words member
  have shorter : s.spelled.length < limits.maxLength := by
    rw [List.length_cons] at short
    omega
  simp [isOpen, nodes, WalkLimits.continues, shorter, someToken]

theorem mem_next_iff {later : PatternState} :
    later ∈ s.next limits ↔ later ∈ s.skipStar ∨
      (later.isOpen limits = true ∧ ∃ n ∈ s.choices limits, s.choose n = later) := by
  rw [next, List.mem_append, List.mem_filter, List.mem_map, and_comm]

/-- A letter that the first token takes ends the word or leads to a state that follows. -/
theorem adds_or_next_of_choice {n : TrieNode} {rest : List Char}
    (capital : n.letter.isUpper = true) (chosen : n ∈ s.choices limits)
    (spells : n.Spells rest) (splits : Pattern.Splits (s.choose n).tokens rest)
    (allowed : ∀ c ∈ rest, limits.allows c = true)
    (long : limits.minLength ≤ s.spelled.length + (rest.length + 1))
    (short : s.spelled.length + (rest.length + 1) ≤ limits.maxLength) :
    s.Adds limits (s.spelled.reverse.map Char.toUpper ++ n.letter :: rest) ∨
      ∃ later ∈ s.next limits,
        later.Totals limits (s.spelled.reverse.map Char.toUpper ++ n.letter :: rest) := by
  obtain ⟨spelled, length⟩ := spelled_choose capital chosen
  cases rest with
  | nil =>
    have stars := Pattern.splits_onlyStars_iff.mp splits
    have ends : n.isEnd = true := spells
    have enough : limits.minLength ≤ s.spelled.length + 1 := by simpa using long
    refine Or.inl ⟨n, chosen, ?_, by rw [spelled]⟩
    simp [isComplete, stars, ends, length, enough]
  | cons d rest =>
    have later : (s.choose n).Totals limits
        (s.spelled.reverse.map Char.toUpper ++ n.letter :: d :: rest) := by
      refine ⟨d :: rest, spells, splits, allowed, ?_, ?_, ?_⟩
      · rw [length]
        omega
      · rw [length]
        omega
      · rw [spelled, List.append_assoc, List.singleton_append]
    exact Or.inr ⟨s.choose n, mem_next_iff.mpr
      (Or.inr ⟨isOpen_of_totals later, n, chosen, rfl⟩), later⟩

theorem adds_or_next_of_totals (capital : s.chain.IsCapital) (totals : s.Totals limits word) :
    s.Adds limits word ∨ ∃ later ∈ s.next limits, later.Totals limits word := by
  obtain ⟨rest, member, splits, allowed, long, short, rfl⟩ := totals
  cases rest with
  | nil => exact absurd member s.chain.nil_notMem_words
  | cons c rest =>
    have capitalLetter := (areCapitals_cons.mp (capital _ member)).1
    obtain ⟨n, sibling, rfl, spells⟩ := Trie.mem_words_iff.mp member
    cases tokensAre : s.tokens with
    | nil =>
      rw [tokensAre, Pattern.splits_nil_iff] at splits
      exact absurd splits (List.cons_ne_nil _ _)
    | cons token tokens =>
      rw [tokensAre, splits_cons_iff capitalLetter] at splits
      rcases splits with ⟨rfl, skipped⟩ | ⟨accepted, taken⟩
      · have nonempty : tokens ≠ [] := by
          rintro rfl
          exact absurd (Pattern.splits_nil_iff.mp skipped) (List.cons_ne_nil _ _)
        refine Or.inr ⟨{ s with tokens }, mem_next_iff.mpr (Or.inl ?_), ?_⟩
        · exact mem_skipStar_iff.mpr ⟨tokens, nonempty, tokensAre, rfl⟩
        · exact ⟨n.letter :: rest, member, skipped, allowed, long, short, rfl⟩
      · rw [List.length_cons] at long short
        have chosen : n ∈ s.choices limits := mem_choices_iff.mpr
          ⟨token, tokens, tokensAre, sibling, accepted, allowed _ (List.mem_cons_self ..), by omega⟩
        have after : (s.choose n).tokens = tokensAfter (token :: tokens) := by
          rw [choose, tokensAre]
        apply adds_or_next_of_choice capitalLetter chosen spells (after ▸ taken) _ long short
        exact fun e member => allowed e (List.mem_cons_of_mem _ member)

theorem totals_of_adds (capital : s.chain.IsCapital) (adds : s.Adds limits word) :
    s.Totals limits word := by
  obtain ⟨n, chosen, complete, rfl⟩ := adds
  obtain ⟨token, tokens, tokensAre, sibling, accepted, allowed, shorter⟩ :=
    mem_choices_iff.mp chosen
  simp only [isComplete, Bool.and_eq_true, decide_eq_true_eq] at complete
  obtain ⟨⟨ends, long⟩, stars⟩ := complete
  have member : [n.letter] ∈ s.chain.words := Trie.mem_words_iff.mpr ⟨n, sibling, rfl, ends⟩
  have capitalLetter := (areCapitals_cons.mp (capital _ member)).1
  obtain ⟨spelled, length⟩ := spelled_choose capitalLetter chosen
  have after : (s.choose n).tokens = tokensAfter (token :: tokens) := by
    rw [choose, tokensAre]
  rw [after, ← Pattern.splits_onlyStars_iff] at stars
  rw [length] at long
  refine ⟨[n.letter], member, ?_, ?_, long, shorter, spelled⟩
  · rw [tokensAre, splits_cons_iff capitalLetter]
    exact Or.inr ⟨accepted, stars⟩
  · intro c single
    rw [List.mem_singleton.mp single]
    exact allowed

theorem totals_of_next (capital : s.chain.IsCapital) {later : PatternState}
    (next : later ∈ s.next limits) (totals : later.Totals limits word) :
    s.Totals limits word := by
  obtain ⟨rest, member, splits, allowed, long, short, rfl⟩ := totals
  rcases mem_next_iff.mp next with skipped | ⟨_, n, chosen, rfl⟩
  · obtain ⟨tokens, _, tokensAre, rfl⟩ := mem_skipStar_iff.mp skipped
    refine ⟨rest, member, ?_, allowed, long, short, rfl⟩
    rw [tokensAre]
    exact Pattern.Splits.star [] splits
  · obtain ⟨token, tokens, tokensAre, sibling, accepted, allowedLetter, _⟩ :=
      mem_choices_iff.mp chosen
    cases rest with
    | nil => exact absurd member (Trie.nil_notMem_words _)
    | cons d rest =>
      have whole : n.letter :: d :: rest ∈ s.chain.words :=
        Trie.mem_words_iff.mpr ⟨n, sibling, rfl, member⟩
      have capitalLetter := (areCapitals_cons.mp (capital _ whole)).1
      obtain ⟨spelled, length⟩ := spelled_choose capitalLetter chosen
      have after : (s.choose n).tokens = tokensAfter (token :: tokens) := by
        rw [choose, tokensAre]
      rw [after] at splits
      rw [length] at long short
      refine ⟨n.letter :: d :: rest, whole, ?_, ?_, ?_, ?_, ?_⟩
      · rw [tokensAre, splits_cons_iff capitalLetter]
        exact Or.inr ⟨accepted, splits⟩
      · intro c letter
        rcases List.mem_cons.mp letter with rfl | letter
        · exact allowedLetter
        · exact allowed c letter
      · rw [List.length_cons]
        omega
      · rw [List.length_cons]
        omega
      · rw [spelled, List.append_assoc, List.singleton_append]

theorem totals_iff (capital : s.chain.IsCapital) :
    s.Totals limits word ↔
      s.Adds limits word ∨ ∃ later ∈ s.next limits, later.Totals limits word := by
  constructor
  · exact adds_or_next_of_totals capital
  · intro either
    rcases either with adds | ⟨later, next, totals⟩
    · exact totals_of_adds capital adds
    · exact totals_of_next capital next totals

theorem isCapital_of_next (capital : s.chain.IsCapital) {later : PatternState}
    (next : later ∈ s.next limits) : later.chain.IsCapital := by
  rcases mem_next_iff.mp next with skipped | ⟨_, n, chosen, rfl⟩
  · obtain ⟨tokens, _, _, rfl⟩ := mem_skipStar_iff.mp skipped
    exact capital
  · obtain ⟨_, _, _, sibling, _⟩ := mem_choices_iff.mp chosen
    exact capital.child sibling

theorem contains_visit (found : MatchSet) (s : PatternState) (spelling : String) :
    (visit limits found s).contains spelling = true ↔
      found.contains spelling = true ∨ s.Adds limits spelling.toList := by
  rw [visit, MatchSet.contains_foldl_insertIf]
  simp only [Adds, ← String.toList_inj, Text.toList_upper, String.toList_ofList]

end PatternState

namespace Pattern

theorem contains_matchesIn (p : Pattern) (limits : WalkLimits) {t : Trie} (capital : t.IsCapital)
    (word : String) :
    (p.matchesIn limits t).contains word = true ↔
      word.toList ∈ t.words ∧ Splits p.tokens word.toList ∧ limits.Admits word.toList := by
  have run := Walk.holds_run (walk limits) (fun found => found.contains word = true)
    (fun s => s.Adds limits word.toList) (fun s => s.Totals limits word.toList)
    (fun s => s.chain.IsCapital) (fun found s _ => PatternState.contains_visit found s word)
    (fun _ capital _ next => PatternState.isCapital_of_next capital next)
    (fun _ capital => PatternState.totals_iff capital)
    .empty [⟨t, [], p.tokens⟩] (by simpa using capital)
  rw [matchesIn, run, MatchSet.contains_empty]
  simp only [Bool.false_eq_true, false_or, List.mem_singleton, exists_eq_left]
  constructor
  · intro holds
    obtain ⟨rest, member, splits, allowed, long, short, same⟩ := holds
    rw [show word.toList = rest by simpa using same]
    exact ⟨member, splits, by simpa using long, by simpa using short, allowed⟩
  · intro holds
    obtain ⟨member, splits, admits⟩ := holds
    exact ⟨word.toList, member, splits, admits.allowed, by simpa using admits.long,
      by simpa using admits.short, by simp⟩

end Pattern

end WordFinder
