import Mathlib
import WordFinder.Proofs.Trie.Beginnings
import WordFinder.Proofs.Trie.Nodes
import WordFinder.Proofs.WordGraph.Inserted

/-!
# Chains of a trie

Some letters lead down a trie to the chain of the letters that may follow them. Inserting a word
changes only the chains along the word, and there it puts the next letter of the word at the end if
the chain lacks it. So the chains of a trie of inserted words list the letters in the order in which
they were first inserted.
-/
set_option autoImplicit false

namespace WordFinder.Trie

variable {t : Trie}

def chainAfter : List Char → Trie → Trie
  | [], t => t
  | c :: start, t =>
    match t.find? c with
    | none => nil
    | some n => n.child.chainAfter start

def letters (t : Trie) : List Char :=
  t.siblings.map TrieNode.letter

theorem letters_node (letter : Char) (isEnd : Bool) (child next : Trie) :
    (node letter isEnd child next).letters = letter :: next.letters :=
  rfl

theorem chainAfter_nil (start : List Char) : nil.chainAfter start = nil := by
  cases start <;> rfl

theorem chainAfter_append (start rest : List Char) (t : Trie) :
    t.chainAfter (start ++ rest) = (t.chainAfter start).chainAfter rest := by
  induction start generalizing t with
  | nil => rfl
  | cons c start ih =>
    rw [List.cons_append, chainAfter, chainAfter]
    cases t.find? c with
    | none => exact (chainAfter_nil rest).symm
    | some n => exact ih n.child

theorem find?_eq_none {c : Char} (fresh : ∀ n ∈ t.siblings, n.letter ≠ c) : t.find? c = none := by
  induction t with
  | nil => rfl
  | node letter isEnd child next _ ih =>
    rw [siblings, List.forall_mem_cons] at fresh
    rw [find?, if_neg fresh.1, ih fresh.2]

theorem IsProper.find?_of_mem (proper : t.IsProper) {n : TrieNode} (member : n ∈ t.siblings) :
    t.find? n.letter = some n := by
  induction t with
  | nil => exact absurd member List.not_mem_nil
  | node letter isEnd child next _ ih =>
    obtain ⟨fresh, _, properNext⟩ := proper
    rcases List.mem_cons.mp member with rfl | later
    · rw [find?, if_pos rfl]
    · rw [find?, if_neg (Ne.symm (fresh n later)), ih properNext later]

theorem mem_siblings_of_find? {c : Char} {n : TrieNode} (found : t.find? c = some n) :
    n ∈ t.siblings := by
  induction t with
  | nil => contradiction
  | node letter isEnd child next _ ih =>
    rw [find?] at found
    split at found
    · rw [← Option.some.inj found]
      exact List.mem_cons_self ..
    · exact List.mem_cons_of_mem _ (ih found)

theorem IsProper.chainAfter (proper : t.IsProper) (start : List Char) :
    (t.chainAfter start).IsProper := by
  induction start generalizing t with
  | nil => exact proper
  | cons c start ih =>
    rw [Trie.chainAfter]
    cases found : t.find? c with
    | none => trivial
    | some n => exact ih (proper.child (mem_siblings_of_find? found))

theorem IsProper.chainAfter_concat (proper : t.IsProper) {start : List Char} {n : TrieNode}
    (member : n ∈ (t.chainAfter start).siblings) :
    t.chainAfter (start ++ [n.letter]) = n.child := by
  simp only [chainAfter_append, Trie.chainAfter, (proper.chainAfter start).find?_of_mem member]

/-! ## Insertion -/

theorem insert_nil_right (word : List Char) : nil.insert word = ofWord word := by
  cases word <;> rfl

/-- The node of the first letter of an inserted word. It is a new one if the chain lacks the
letter. -/
theorem find?_insert_self (t : Trie) (c : Char) (word : List Char) :
    (t.insert (c :: word)).find? c =
      let old := (t.find? c).getD ⟨c, false, nil⟩
      some ⟨c, old.isEnd || word.isEmpty, old.child.insert word⟩ := by
  induction t with
  | nil => simp [insert, ofWord, find?, insert_nil_right]
  | node letter isEnd child next _ ih =>
    by_cases same : letter = c
    · simp [insert, find?, same]
    · rw [insert, if_neg same, find?, if_neg same, ih, find?, if_neg same]

theorem find?_insert_of_ne (t : Trie) {c d : Char} (other : c ≠ d) (word : List Char) :
    (t.insert (d :: word)).find? c = t.find? c := by
  induction t with
  | nil => simp [insert, ofWord, find?, Ne.symm other]
  | node letter isEnd child next _ ih =>
    rw [insert, find?]
    by_cases same : letter = d
    · have apart : letter ≠ c := fun equal => other (equal.symm.trans same)
      rw [if_pos same, find?, if_neg apart, if_neg apart]
    · rw [if_neg same, find?, ih]

theorem chainAfter_insert (t : Trie) (start word : List Char) :
    (t.insert word).chainAfter start =
      if start <+: word then (t.chainAfter start).insert (word.drop start.length)
      else t.chainAfter start := by
  induction start generalizing t word with
  | nil => simp [chainAfter]
  | cons c start ih =>
    cases word with
    | nil => simp [insert]
    | cons d word =>
      by_cases same : c = d
      · subst same
        simp only [chainAfter, find?_insert_self, List.cons_prefix_cons, true_and,
          List.length_cons, List.drop_succ_cons, ih]
        cases t.find? c with
        | none => simp [chainAfter_nil]
        | some n => rfl
      · rw [chainAfter, find?_insert_of_ne t same, if_neg (by simp [same]), chainAfter]

theorem letters_insert_nil (t : Trie) : (t.insert []).letters = t.letters := by
  cases t <;> rfl

theorem letters_insert_cons (t : Trie) (c : Char) (word : List Char) :
    (t.insert (c :: word)).letters = if c ∈ t.letters then t.letters else t.letters ++ [c] := by
  induction t with
  | nil => rfl
  | node letter isEnd child next _ ih =>
    rw [insert]
    by_cases same : letter = c
    · simp [same, letters_node]
    · rw [if_neg same, letters_node, letters_node, ih]
      by_cases known : c ∈ next.letters <;> simp [known, Ne.symm same]

theorem insert_of_contains {word : List Char} (known : t.contains word = true) :
    t.insert word = t := by
  induction t generalizing word with
  | nil => cases word <;> simp [contains, find?] at known
  | node letter isEnd child next ihChild ihNext =>
    cases word with
    | nil => rfl
    | cons c word =>
      rw [contains_node] at known
      rw [insert]
      by_cases same : letter = c
      · rw [if_pos same] at known ⊢
        cases word with
        | nil =>
          have ends : isEnd = true := known
          have unchanged : child.insert [] = child := by cases child <;> rfl
          rw [ends, unchanged, Bool.true_or]
        | cons d word => rw [ihChild known, List.isEmpty_cons, Bool.or_false]
      · rw [if_neg same] at known ⊢
        rw [ihNext known]

/-! ## Tries of words -/

theorem ofWords_concat (words : List String) (word : String) :
    ofWords (words ++ [word]) = (ofWords words).insert word.toList := by
  rw [ofWords, List.foldl_append, ofWords]
  rfl

theorem isProper_ofWords (words : List String) : (ofWords words).IsProper := by
  induction words using List.reverseRecOn with
  | nil => trivial
  | append_singleton words word ih =>
    rw [ofWords_concat]
    exact ih.insert _

theorem isPruned_ofWords (words : List String) : (ofWords words).IsPruned := by
  induction words using List.reverseRecOn with
  | nil => exact isPruned_nil
  | append_singleton words word ih =>
    rw [ofWords_concat]
    exact ih.insert _

theorem mem_toList_words_ofWords {words : List String} {word : List Char} :
    word ∈ (ofWords words).words ↔ word ∈ words.map String.toList ∧ word ≠ [] := by
  rw [ofWords, mem_words_foldl_insert, List.mem_map]
  simp only [Trie.words, List.not_mem_nil, false_or]
  refine and_congr_left fun _ => ⟨fun member => ⟨_, member, String.toList_ofList⟩, ?_⟩
  rintro ⟨text, member, rfl⟩
  rwa [String.ofList_toList]

theorem insert_ofWords {words : List String} {word : String} (member : word ∈ words) :
    (ofWords words).insert word.toList = ofWords words := by
  by_cases empty : word = ""
  · rw [empty]
    cases ofWords words <;> rfl
  · refine insert_of_contains ?_
    rw [(isProper_ofWords words).contains_iff, mem_words_ofWords]
    exact ⟨member, empty⟩

theorem nodeCount_ofWords (words : List String) :
    (ofWords words).nodeCount = (beginnings (words.map String.toList)).length := by
  have perm : (ofWords words).prefixes.Perm (beginnings (words.map String.toList)) := by
    rw [List.perm_ext_iff_of_nodup (isProper_ofWords words).nodup_prefixes (nodup_beginnings _)]
    intro start
    rw [isPruned_ofWords, mem_beginnings_iff]
    simp only [mem_toList_words_ofWords]
    grind
  rw [← length_prefixes, perm.length_eq]

/-- The chains of a trie of words hold each letter once, in the order of first insertion. -/
theorem letters_chainAfter_ofWords (words : List String) (start : List Char) :
    ((ofWords words).chainAfter start).letters =
      lettersAfter (words.map String.toList) start := by
  induction words using List.reverseRecOn with
  | nil => rw [ofWords, List.foldl_nil, chainAfter_nil]; rfl
  | append_singleton words word ih =>
    rw [ofWords_concat, chainAfter_insert, List.map_append, List.map_singleton, lettersAfter,
      List.filterMap_append]
    split
    · next begins =>
      obtain ⟨rest, whole⟩ := begins
      rw [← whole, List.drop_left]
      cases rest with
      | nil => simp [letterAfter?, letters_insert_nil, ih, lettersAfter]
      | cons c rest =>
        rw [letters_insert_cons, ih]
        simp [letterAfter?, lettersAfter, eraseDups_concat, List.mem_eraseDups]
    · next apart => simp [letterAfter?, apart, ih, lettersAfter]

theorem contains_concat (t : Trie) (start : List Char) (c : Char) :
    t.contains (start ++ [c]) = ((t.chainAfter start).find? c).any (·.isEnd) := by
  induction start generalizing t with
  | nil =>
    rw [List.nil_append, contains, chainAfter]
    cases t.find? c <;> rfl
  | cons d start ih =>
    rw [List.cons_append, contains, chainAfter]
    cases t.find? d with
    | none => rfl
    | some n => simp [ih]

theorem isEnd_chainAfter_ofWords {words : List String} {start : List Char} {n : TrieNode}
    (member : n ∈ ((ofWords words).chainAfter start).siblings) :
    n.isEnd = true ↔ start ++ [n.letter] ∈ words.map String.toList := by
  have proper := isProper_ofWords words
  have found := (proper.chainAfter start).find?_of_mem member
  have ends : n.isEnd = (ofWords words).contains (start ++ [n.letter]) := by
    rw [contains_concat, found, Option.any_some]
  rw [ends, proper.contains_iff, mem_toList_words_ofWords]
  simp

end WordFinder.Trie
