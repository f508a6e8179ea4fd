import Mathlib
import WordFinder.Trie

/-!
# Words of a trie

The words that a trie spells, node by node. Inserting a word adds that word and no other, and a word
is spelled by one of the nodes of a chain and a word of what follows that node.
-/
set_option autoImplicit false

namespace WordFinder

def Trie.words : Trie → List (List Char)
  | .nil => []
  | .node letter isEnd child next =>
    (if isEnd then [[letter]] else []) ++ child.words.map (letter :: ·) ++ next.words

def TrieNode.Spells (n : TrieNode) : List Char → Prop
  | [] => n.isEnd = true
  | c :: word => c :: word ∈ n.child.words

namespace Trie

theorem nil_notMem_words (t : Trie) : [] ∉ t.words := by
  induction t with
  | nil => simp [words]
  | node letter isEnd child next _ ih => cases isEnd <;> simp [words, ih]

theorem exists_cons_of_mem_words {t : Trie} {word : List Char} (member : word ∈ t.words) :
    ∃ c rest, word = c :: rest := by
  cases word with
  | nil => exact absurd member t.nil_notMem_words
  | cons c rest => exact ⟨c, rest, rfl⟩

theorem isEmpty_of_mem_words {t : Trie} {word : List Char} (member : word ∈ t.words) :
    t.isEmpty = false := by
  cases t with
  | nil => exact absurd member List.not_mem_nil
  | node letter isEnd child next => rfl

theorem length_words (t : Trie) : t.words.length = t.wordCount := by
  induction t with
  | nil => rfl
  | node letter isEnd child next ihChild ihNext =>
    rw [words, wordCount, List.length_append, List.length_append, List.length_map, ihChild, ihNext]
    cases isEnd <;> rfl

theorem mem_words_node {letter : Char} {isEnd : Bool} {child next : Trie} {c : Char}
    {word : List Char} :
    c :: word ∈ (node letter isEnd child next).words ↔
      (letter = c ∧ TrieNode.Spells ⟨letter, isEnd, child⟩ word) ∨ c :: word ∈ next.words := by
  have noEmpty := child.nil_notMem_words
  cases word with
  | nil => cases isEnd <;> simp [words, TrieNode.Spells, noEmpty, eq_comm]
  | cons d word => cases isEnd <;> simp [words, TrieNode.Spells, and_comm]

theorem mem_words_iff {t : Trie} {c : Char} {word : List Char} :
    c :: word ∈ t.words ↔ ∃ n ∈ t.siblings, n.letter = c ∧ n.Spells word := by
  induction t with
  | nil => simp [words, siblings]
  | node letter isEnd child next _ ih => rw [mem_words_node, ih, siblings]; simp

theorem mem_words_ofWord {word other : List Char} :
    other ∈ (ofWord word).words ↔ other = word ∧ word ≠ [] := by
  induction word generalizing other with
  | nil => simp [ofWord, words]
  | cons c word ih =>
    cases other with
    | nil => simp [nil_notMem_words]
    | cons d other =>
      rw [ofWord, mem_words_node]
      cases other with
      | nil => cases word <;> simp [TrieNode.Spells, words, eq_comm]
      | cons e other =>
        simp only [TrieNode.Spells, ih, words]
        grind

/-- Insertion adds one word. The induction follows the chain; below the node that has the first
letter it goes on with the rest of the word. -/
theorem mem_words_insert {t : Trie} {word other : List Char} :
    other ∈ (t.insert word).words ↔ other ∈ t.words ∨ (other = word ∧ word ≠ []) := by
  induction t generalizing word other with
  | nil =>
    cases word with
    | nil => simp [insert, words]
    | cons c word => rw [insert, mem_words_ofWord]; simp [words]
  | node letter isEnd child next ihChild ihNext =>
    cases word with
    | nil => simp [insert]
    | cons c word =>
      cases other with
      | nil => simp [nil_notMem_words]
      | cons d other =>
        by_cases same : letter = c
        · have below : TrieNode.Spells ⟨letter, isEnd || word.isEmpty, child.insert word⟩ other ↔
              TrieNode.Spells ⟨letter, isEnd, child⟩ other ∨ other = word := by
            cases other with
            | nil => cases word <;> simp [TrieNode.Spells]
            | cons e other =>
              simp only [TrieNode.Spells, ihChild]
              grind
          rw [insert, if_pos same, mem_words_node, below, mem_words_node]
          grind
        · rw [insert, if_neg same, mem_words_node, ihNext, mem_words_node]
          grind

/-! ## Looking words up -/

theorem contains_node {letter : Char} {isEnd : Bool} {child next : Trie} (c : Char)
    (word : List Char) :
    contains (c :: word) (node letter isEnd child next) =
      if letter = c then (if word.isEmpty then isEnd else contains word child)
      else contains (c :: word) next := by
  by_cases same : letter = c
  · rw [contains, find?, if_pos same, if_pos same]
  · rw [contains, find?, if_neg same, if_neg same, contains]

/-! ## Proper tries -/

/-- No chain of the trie has a letter twice. -/
def IsProper : Trie → Prop
  | nil => True
  | node letter _ child next =>
    (∀ n ∈ next.siblings, n.letter ≠ letter) ∧ child.IsProper ∧ next.IsProper

theorem isProper_ofWord (word : List Char) : (ofWord word).IsProper := by
  induction word with
  | nil => trivial
  | cons c word ih => exact ⟨by simp [siblings], ih, trivial⟩

theorem letter_of_mem_insert {t : Trie} {word : List Char} {n : TrieNode}
    (member : n ∈ (t.insert word).siblings) :
    (∃ old ∈ t.siblings, old.letter = n.letter) ∨ word.head? = some n.letter := by
  induction t with
  | nil =>
    cases word with
    | nil => simp [insert, siblings] at member
    | cons c word =>
      right
      simp only [insert, ofWord, siblings, List.mem_singleton] at member
      rw [member]
      rfl
  | node letter isEnd child next _ ih =>
    cases word with
    | nil => exact Or.inl ⟨n, member, rfl⟩
    | cons c word =>
      rw [insert] at member
      split at member
      · rcases List.mem_cons.mp member with rfl | later
        · exact Or.inl ⟨⟨letter, isEnd, child⟩, List.mem_cons_self .., rfl⟩
        · exact Or.inl ⟨n, List.mem_cons_of_mem _ later, rfl⟩
      · rcases List.mem_cons.mp member with rfl | later
        · exact Or.inl ⟨⟨letter, isEnd, child⟩, List.mem_cons_self .., rfl⟩
        · rcases ih later with ⟨old, oldMember, same⟩ | first
          · exact Or.inl ⟨old, List.mem_cons_of_mem _ oldMember, same⟩
          · exact Or.inr first

theorem IsProper.insert {t : Trie} (proper : t.IsProper) (word : List Char) :
    (t.insert word).IsProper := by
  induction t generalizing word with
  | nil =>
    cases word with
    | nil => trivial
    | cons c word => exact isProper_ofWord (c :: word)
  | node letter isEnd child next ihChild ihNext =>
    obtain ⟨fresh, properChild, properNext⟩ := proper
    cases word with
    | nil => exact ⟨fresh, properChild, properNext⟩
    | cons c word =>
      rw [Trie.insert]
      split
      · exact ⟨fresh, ihChild properChild word, properNext⟩
      · next other =>
        refine ⟨?_, properChild, ihNext properNext (c :: word)⟩
        intro n member
        rcases letter_of_mem_insert member with ⟨old, oldMember, same⟩ | first
        · rw [← same]
          exact fresh old oldMember
        · rw [List.head?_cons, Option.some.injEq] at first
          rw [← first]
          exact Ne.symm other

theorem IsProper.child {t : Trie} (proper : t.IsProper) {n : TrieNode} (member : n ∈ t.siblings) :
    n.child.IsProper := by
  induction t with
  | nil => exact absurd member List.not_mem_nil
  | node letter isEnd child next _ ih =>
    obtain ⟨_, properChild, properNext⟩ := proper
    rcases List.mem_cons.mp member with rfl | later
    · exact properChild
    · exact ih properNext later

theorem IsProper.nodup_letters {t : Trie} (proper : t.IsProper) :
    (t.siblings.map TrieNode.letter).Nodup := by
  induction t with
  | nil => exact List.nodup_nil
  | node letter isEnd child next _ ih =>
    obtain ⟨fresh, _, properNext⟩ := proper
    rw [siblings, List.map_cons, List.nodup_cons]
    refine ⟨fun member => ?_, ih properNext⟩
    obtain ⟨n, later, same⟩ := List.mem_map.mp member
    exact fresh n later same

theorem notMem_words_of_fresh {t : Trie} {c : Char} (fresh : ∀ n ∈ t.siblings, n.letter ≠ c)
    (word : List Char) : c :: word ∉ t.words := by
  rw [mem_words_iff]
  intro holds
  obtain ⟨n, member, same, _⟩ := holds
  exact fresh n member same

theorem IsProper.contains_iff {t : Trie} (proper : t.IsProper) (word : List Char) :
    t.contains word = true ↔ word ∈ t.words := by
  induction t generalizing word with
  | nil => cases word <;> simp [contains, find?, words]
  | node letter isEnd child next ihChild ihNext =>
    obtain ⟨fresh, properChild, properNext⟩ := proper
    cases word with
    | nil => simp [contains, nil_notMem_words]
    | cons c word =>
      rw [contains_node, mem_words_node]
      by_cases same : letter = c
      · have notLater : c :: word ∉ next.words := notMem_words_of_fresh (same ▸ fresh) word
        rw [if_pos same]
        cases word with
        | nil => simp [TrieNode.Spells, same, notLater]
        | cons d word => simp [TrieNode.Spells, same, notLater, ihChild properChild]
      · rw [if_neg same, ihNext properNext]
        simp [same]

theorem IsProper.nodup_words {t : Trie} (proper : t.IsProper) : t.words.Nodup := by
  induction t with
  | nil => exact List.nodup_nil
  | node letter isEnd child next ihChild ihNext =>
    obtain ⟨fresh, properChild, properNext⟩ := proper
    have below : (child.words.map (letter :: ·)).Nodup :=
      (ihChild properChild).map (List.cons_injective)
    have here : ((if isEnd then [[letter]] else []) ++ child.words.map (letter :: ·)).Nodup := by
      have noEmpty := child.nil_notMem_words
      cases isEnd <;> simp [below, noEmpty]
    rw [words, List.nodup_append]
    refine ⟨here, ihNext properNext, ?_⟩
    intro first firstMember second secondMember same
    obtain ⟨word, rfl⟩ : ∃ word, first = letter :: word := by
      rcases List.mem_append.mp firstMember with single | longer
      · cases isEnd with
        | false => simp at single
        | true => exact ⟨[], by simpa using single⟩
      · obtain ⟨word, _, rfl⟩ := List.mem_map.mp longer
        exact ⟨word, rfl⟩
    exact notMem_words_of_fresh fresh word (same ▸ secondMember)

end Trie

end WordFinder
