import Mathlib
import WordFinder.Proofs.Trie

/-!
# Nodes of a trie

Each node stands for the letters that lead to it. In a trie that insertions built, these are the
beginnings of its words, and in a proper trie no two nodes stand for the same letters, so the words
decide how many nodes there are.
-/
set_option autoImplicit false

namespace WordFinder.Trie

def prefixes : Trie → List (List Char)
  | nil => []
  | node letter _ child next => [letter] :: child.prefixes.map (letter :: ·) ++ next.prefixes

theorem length_prefixes (t : Trie) : t.prefixes.length = t.nodeCount := by
  induction t with
  | nil => rfl
  | node letter isEnd child next ihChild ihNext =>
    rw [prefixes, List.length_append, List.length_cons, List.length_map, ihChild, ihNext, nodeCount]
    omega

theorem nil_notMem_prefixes (t : Trie) : [] ∉ t.prefixes := by
  induction t with
  | nil => simp [prefixes]
  | node letter isEnd child next _ ih => simp [prefixes, ih]

theorem mem_prefixes_node {letter : Char} {isEnd : Bool} {child next : Trie} {c : Char}
    {start : List Char} :
    c :: start ∈ (node letter isEnd child next).prefixes ↔
      (letter = c ∧ (start = [] ∨ start ∈ child.prefixes)) ∨ c :: start ∈ next.prefixes := by
  rw [prefixes, List.mem_append, List.mem_cons, List.mem_map]
  simp only [List.cons.injEq]
  grind

theorem mem_prefixes_ofWord {word start : List Char} :
    start ∈ (ofWord word).prefixes ↔ start ≠ [] ∧ start <+: word := by
  induction word generalizing start with
  | nil => simp [ofWord, prefixes]
  | cons c word ih =>
    cases start with
    | nil => simp [nil_notMem_prefixes]
    | cons d start =>
      rw [ofWord, mem_prefixes_node, ih, List.cons_prefix_cons]
      simp only [prefixes, List.not_mem_nil, or_false]
      cases start <;> simp [eq_comm]

/-- Insertion makes the nodes along the word. The induction is the one for the words of a trie. -/
theorem mem_prefixes_insert {t : Trie} {word start : List Char} :
    start ∈ (t.insert word).prefixes ↔ start ∈ t.prefixes ∨ (start ≠ [] ∧ start <+: word) := by
  induction t generalizing word start with
  | nil =>
    cases word with
    | nil => simp [insert, prefixes]
    | cons c word => rw [insert, mem_prefixes_ofWord]; simp [prefixes]
  | node letter isEnd child next ihChild ihNext =>
    cases word with
    | nil => simp [insert]
    | cons c word =>
      cases start with
      | nil => simp [nil_notMem_prefixes]
      | cons d start =>
        by_cases same : letter = c
        · rw [insert, if_pos same, mem_prefixes_node, mem_prefixes_node, ihChild,
            List.cons_prefix_cons]
          grind
        · rw [insert, if_neg same, mem_prefixes_node, ihNext, mem_prefixes_node,
            List.cons_prefix_cons]
          grind

theorem notMem_prefixes_of_fresh {t : Trie} {c : Char} (fresh : ∀ n ∈ t.siblings, n.letter ≠ c)
    (start : List Char) : c :: start ∉ t.prefixes := by
  induction t with
  | nil => exact List.not_mem_nil
  | node letter isEnd child next _ ih =>
    rw [siblings, List.forall_mem_cons] at fresh
    rw [mem_prefixes_node]
    intro either
    rcases either with ⟨same, _⟩ | later
    · exact fresh.1 same
    · exact ih fresh.2 later

theorem IsProper.nodup_prefixes {t : Trie} (proper : t.IsProper) : t.prefixes.Nodup := by
  induction t with
  | nil => exact List.nodup_nil
  | node letter isEnd child next ihChild ihNext =>
    obtain ⟨fresh, properChild, properNext⟩ := proper
    have below : (child.prefixes.map (letter :: ·)).Nodup :=
      (ihChild properChild).map List.cons_injective
    have here : ([letter] :: child.prefixes.map (letter :: ·)).Nodup := by
      rw [List.nodup_cons]
      refine ⟨fun member => ?_, below⟩
      obtain ⟨start, found, same⟩ := List.mem_map.mp member
      rw [List.cons.injEq] at same
      exact child.nil_notMem_prefixes (same.2 ▸ found)
    rw [prefixes, List.nodup_append]
    refine ⟨here, ihNext properNext, fun first firstMember second secondMember same => ?_⟩
    obtain ⟨start, rfl⟩ : ∃ start, first = letter :: start := by
      rcases List.mem_cons.mp firstMember with single | longer
      · exact ⟨[], single⟩
      · obtain ⟨start, _, rfl⟩ := List.mem_map.mp longer
        exact ⟨start, rfl⟩
    exact notMem_prefixes_of_fresh fresh start (same ▸ secondMember)

/-! ## Tries that insertions built -/

/-- Every node is on the way to a word, and every word has its nodes. -/
def IsPruned (t : Trie) : Prop :=
  ∀ start, start ∈ t.prefixes ↔ start ≠ [] ∧ ∃ word ∈ t.words, start <+: word

theorem isPruned_nil : nil.IsPruned := by
  intro start
  simp [prefixes, words]

theorem IsPruned.insert {t : Trie} (pruned : t.IsPruned) (word : List Char) :
    (t.insert word).IsPruned := by
  intro start
  have noWord : word = [] → start ≠ [] → ¬start <+: word := by
    rintro rfl nonempty isPrefix
    exact nonempty (List.prefix_nil.mp isPrefix)
  simp only [mem_prefixes_insert, mem_words_insert, pruned start]
  grind

theorem nodeCount_eq_of_words {t u : Trie} (properFirst : t.IsProper) (properSecond : u.IsProper)
    (prunedFirst : t.IsPruned) (prunedSecond : u.IsPruned)
    (same : ∀ word, word ∈ t.words ↔ word ∈ u.words) : t.nodeCount = u.nodeCount := by
  have perm : t.prefixes.Perm u.prefixes := by
    rw [List.perm_ext_iff_of_nodup properFirst.nodup_prefixes properSecond.nodup_prefixes]
    intro start
    simp only [prunedFirst start, prunedSecond start, same]
  rw [← length_prefixes, ← length_prefixes, perm.length_eq]

end WordFinder.Trie
