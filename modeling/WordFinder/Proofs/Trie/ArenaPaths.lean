import Mathlib
import WordFinder.Proofs.Trie.ArenaTrie

/-!
# Paths through an arena

Every node of an arena is reached from the root by one path only, and spells one beginning of the
words. So the arena has as many nodes as its words have beginnings, links lead forward, and putting
a word in again changes nothing.
-/
set_option autoImplicit false

namespace WordFinder.Arena

open Trie (beginnings lettersAfter)

/-- The two ways on from a node: along its chain, and down to the chain below it. -/
inductive Way where
  | next
  | child
deriving DecidableEq, Repr

/-- A path from a link leads to a node. It spells the letters of the nodes where it goes down, and
then that of the node it leads to. -/
inductive Reaches (a : Arena) : Option NodeIndex → List Way → NodeIndex → List Char → Prop where
  | here {i : NodeIndex} {n : ArenaNode} (found : a.node? i = some n) :
    a.Reaches (some i) [] i [n.letter]
  | next {i goal : NodeIndex} {n : ArenaNode} {path : List Way} {word : List Char}
    (found : a.node? i = some n) (rest : a.Reaches n.next path goal word) :
    a.Reaches (some i) (.next :: path) goal word
  | child {i goal : NodeIndex} {n : ArenaNode} {path : List Way} {word : List Char}
    (found : a.node? i = some n) (rest : a.Reaches n.child path goal word) :
    a.Reaches (some i) (.child :: path) goal (n.letter :: word)

variable {a : Arena} {starts words : List (List Char)} {start word : List Char} {k : Nat}
  {path other : List Way} {i j : NodeIndex}

theorem Reaches.cases_of_node {n : ArenaNode} (node : a.node? i = some n)
    (reached : a.Reaches (some i) path j word) :
    (path = [] ∧ word = [n.letter]) ∨
      (∃ rest, path = .next :: rest ∧ a.Reaches n.next rest j word) ∨
        ∃ rest below, path = .child :: rest ∧ word = n.letter :: below ∧
          a.Reaches n.child rest j below := by
  cases reached with
  | here found =>
    obtain rfl := Option.some.inj (found.symm.trans node)
    exact Or.inl ⟨rfl, rfl⟩
  | next found rest =>
    obtain rfl := Option.some.inj (found.symm.trans node)
    exact Or.inr (Or.inl ⟨_, rfl, rest⟩)
  | child found rest =>
    obtain rfl := Option.some.inj (found.symm.trans node)
    exact Or.inr (Or.inr ⟨_, _, rfl, rfl, rest⟩)

theorem Reaches.nonempty {l : Option NodeIndex} (reached : a.Reaches l path i word) :
    word ≠ [] := by
  induction reached with
  | here | child => exact List.cons_ne_nil _ _
  | next _ _ ih => exact ih

section Layout

variable (lays : a.Lays starts words) (growth : Trie.IsGrowth starts)
  (few : starts.length ≤ 2 ^ 32)

theorem exists_of_link_eq_some (growth : Trie.IsGrowth starts)
    (leads : link starts start k = some i) :
    ∃ (c : Char) (j : Nat) (rest : List (List Char × Nat)), i = j.toUInt32 ∧
      places starts start k = (start ++ [c], j) :: rest ∧ k ≤ j ∧
        starts[j]? = some (start ++ [c]) := by
  obtain ⟨⟨word, j⟩, first, rfl⟩ := Option.map_eq_some_iff.mp leads
  obtain ⟨rest, chain⟩ := List.head?_eq_some_iff.mp first
  obtain ⟨later, found, rfl⟩ := mem_places_iff.mp (chain ▸ List.mem_cons_self ..)
  have nonempty : word ≠ [] := fun same => growth.nonempty (same ▸ List.mem_of_getElem? found)
  have whole := List.dropLast_append_getLast nonempty
  exact ⟨word.getLast nonempty, j, rest, rfl, by rw [whole, chain], later, by rw [whole, found]⟩

include lays growth few

theorem Lays.nodeOfLink {n : ArenaNode} (leads : link starts start k = some i)
    (node : a.node? i = some n) :
    ∃ (c : Char) (j : Nat), i = j.toUInt32 ∧ k ≤ j ∧ starts[j]? = some (start ++ [c]) ∧
      n.letter = c ∧ n.next = link starts start (j + 1) ∧
        n.child = link starts (start ++ [c]) 0 := by
  obtain ⟨c, j, _, rfl, _, later, found⟩ := exists_of_link_eq_some growth leads
  obtain rfl : nodeAt starts words j (start ++ [c]) = n :=
    Option.some.inj ((lays.spells.node? few found).symm.trans node)
  refine ⟨c, j, rfl, later, found, ?_, ?_, rfl⟩
  · simp [nodeAt]
  · simp [nodeAt]

/-- A path that starts at some place of a chain spells a beginning behind it. The first letter it
spells is that of a place not before the one where it starts. -/
theorem Lays.spelled (reached : a.Reaches (link starts start k) path i word) :
    ∃ (c : Char) (rest : List Char) (j m : Nat), word = c :: rest ∧ k ≤ j ∧
      starts[j]? = some (start ++ [c]) ∧ starts[m]? = some (start ++ word) ∧ i = m.toUInt32 := by
  generalize leads : link starts start k = l at reached
  induction reached generalizing start k with
  | here node =>
    obtain ⟨c, j, rfl, later, found, rfl, _, _⟩ := lays.nodeOfLink growth few leads node
    exact ⟨_, [], j, j, rfl, later, found, found, rfl⟩
  | next node _ ih =>
    obtain ⟨_, j, rfl, later, _, _, next, _⟩ := lays.nodeOfLink growth few leads node
    obtain ⟨c, rest, first, m, spelled, behind, top, found, number⟩ := ih next.symm
    exact ⟨c, rest, first, m, spelled, by omega, top, found, number⟩
  | child node _ ih =>
    obtain ⟨c, j, rfl, later, found, rfl, _, below⟩ := lays.nodeOfLink growth few leads node
    obtain ⟨_, _, _, m, _, _, _, whole, number⟩ := ih below.symm
    exact ⟨_, _, j, m, rfl, later, found, by simpa using whole, number⟩

theorem Lays.notBehind {c : Char} (found : starts[k]? = some (start ++ [c])) :
    ¬a.Reaches (link starts start (k + 1)) path i (c :: word) := by
  intro reached
  obtain ⟨d, rest, m, _, same, later, foundSame, _⟩ := lays.spelled growth few reached
  obtain ⟨rfl, rfl⟩ := List.cons_eq_cons.mp same
  have := position_unique growth.nodup found foundSame
  omega

/-- Two paths from one place that spell the same are one path. They cannot part where one of them
goes down or ends, since no later place of the chain has the same letter. -/
theorem Lays.path_unique (first : a.Reaches (link starts start k) path i word)
    (second : a.Reaches (link starts start k) other j word) : path = other := by
  generalize leads : link starts start k = l at first
  induction first generalizing start k other j with
  | here node =>
    obtain ⟨c, p, _, _, found, rfl, next, _⟩ := lays.nodeOfLink growth few leads node
    rw [leads] at second
    rcases second.cases_of_node node with ⟨rfl, _⟩ | ⟨_, _, rest⟩ | ⟨_, _, _, same, rest⟩
    · rfl
    · exact absurd (next ▸ rest) (lays.notBehind growth few found)
    · exact absurd (List.cons_eq_cons.mp same).2.symm rest.nonempty
  | next node first ih =>
    obtain ⟨c, p, _, _, found, rfl, next, _⟩ := lays.nodeOfLink growth few leads node
    rw [leads] at second
    rcases second.cases_of_node node with ⟨_, rfl⟩ | ⟨_, rfl, rest⟩ | ⟨_, _, _, rfl, _⟩
    · exact absurd (next ▸ first) (lays.notBehind growth few found)
    · rw [ih (next ▸ rest) next.symm]
    · exact absurd (next ▸ first) (lays.notBehind growth few found)
  | child node first ih =>
    obtain ⟨c, p, _, _, found, rfl, next, below⟩ := lays.nodeOfLink growth few leads node
    rw [leads] at second
    rcases second.cases_of_node node with ⟨_, same⟩ | ⟨_, _, rest⟩ | ⟨_, _, rfl, same, rest⟩
    · exact absurd (List.cons_eq_cons.mp same).2 first.nonempty
    · exact absurd (next ▸ rest) (lays.notBehind growth few found)
    · obtain ⟨_, rfl⟩ := List.cons_eq_cons.mp same
      rw [ih (below ▸ rest) below.symm]

omit growth in
theorem Lays.exists_path_of_place {m : Nat} {top : List Char}
    (place : (top, m) ∈ places starts start k)
    (reached : a.Reaches (some m.toUInt32) path i word) :
    ∃ other, a.Reaches (link starts start k) other i word := by
  generalize chain : places starts start k = list at place
  induction list generalizing k with
  | nil => exact absurd place List.not_mem_nil
  | cons first rest ih =>
    obtain ⟨front, p⟩ := first
    have leads : link starts start k = some p.toUInt32 := by rw [link, chain]; rfl
    obtain ⟨_, found, shorter⟩ := mem_places_iff.mp (chain ▸ List.mem_cons_self ..)
    rcases List.mem_cons.mp place with same | later
    · obtain ⟨rfl, rfl⟩ := Prod.mk.inj same
      exact ⟨path, leads ▸ reached⟩
    · obtain ⟨other, behind⟩ := ih (places_tail chain).symm later
      rw [← shorter] at behind
      refine ⟨.next :: other, ?_⟩
      rw [leads]
      exact .next (lays.spells.node? few found) behind

/-- Every node has a path. The induction is on what it spells; each letter but the last goes down
one chain. -/
theorem Lays.exists_path {m : Nat} (nonempty : word ≠ [])
    (found : starts[m]? = some (start ++ word)) :
    ∃ path, a.Reaches (link starts start 0) path m.toUInt32 word := by
  induction word generalizing start with
  | nil => exact absurd rfl nonempty
  | cons c word ih =>
    by_cases last : word = []
    · subst last
      have here : a.Reaches (some m.toUInt32) [] m.toUInt32 [c] := by
        have node := lays.spells.node? few found
        have letter : (nodeAt starts words m (start ++ [c])).letter = c := by simp [nodeAt]
        exact letter ▸ .here node
      exact lays.exists_path_of_place few
        (mem_places_iff.mpr ⟨Nat.zero_le _, found, List.dropLast_concat⟩) here
    · have above : start ++ [c] ∈ starts := by
        refine growth.mem_of_prefix (by simp) ⟨word, ?_⟩ (List.mem_of_getElem? found)
        rw [List.append_assoc, List.singleton_append]
      obtain ⟨j, top⟩ := List.mem_iff_getElem?.mp above
      have longer : starts[m]? = some ((start ++ [c]) ++ word) := by simpa using found
      obtain ⟨path, below⟩ := ih last longer
      have down : a.Reaches (some j.toUInt32) (.child :: path) m.toUInt32 (c :: word) := by
        have node := lays.spells.node? few top
        have letter : (nodeAt starts words j (start ++ [c])).letter = c := by simp [nodeAt]
        exact letter ▸ .child node below
      exact lays.exists_path_of_place few
        (mem_places_iff.mpr ⟨Nat.zero_le _, top, List.dropLast_concat⟩) down

theorem Lays.getElem?_of_reaches (reached : a.Reaches a.root path i word) :
    starts[i.toNat]? = some word := by
  rw [lays.root] at reached
  obtain ⟨_, _, _, m, _, _, _, found, rfl⟩ := lays.spelled growth few reached
  rw [toNat_toUInt32 few found]
  exact found

theorem Lays.existsUnique_path (inside : i.toNat < a.nodes.size) :
    ∃! path, ∃ word, a.Reaches a.root path i word := by
  rw [lays.size] at inside
  have found : starts[i.toNat]? = some ([] ++ starts[i.toNat]) := List.getElem?_eq_getElem inside
  have nonempty : starts[i.toNat] ≠ [] := fun same =>
    growth.nonempty (same ▸ List.getElem_mem inside)
  obtain ⟨path, reached⟩ := lays.exists_path growth few nonempty found
  have number : i.toNat.toUInt32 = i := UInt32.ofNat_toNat
  rw [number, ← lays.root] at reached
  refine ⟨path, ⟨_, reached⟩, ?_⟩
  rintro other ⟨word, second⟩
  have same := (lays.getElem?_of_reaches growth few reached).symm.trans
    (lays.getElem?_of_reaches growth few second)
  rw [← Option.some.inj same] at second
  rw [lays.root] at reached second
  exact lays.path_unique growth few second reached

/-- Links lead to later beginnings: those behind in the same chain, and longer ones. -/
theorem Lays.lt_of_leads {n : ArenaNode} (node : a.node? i = some n)
    (leads : n.next = some j ∨ n.child = some j) : i < j ∧ j.toNat < a.nodes.size := by
  rw [Arena.node?, lays.node, Option.map_eq_some_iff] at node
  obtain ⟨word, found, rfl⟩ := node
  have member := List.mem_of_getElem? found
  rw [UInt32.lt_iff_toNat_lt, lays.size]
  rcases leads with next | child
  · obtain ⟨_, p, _, rfl, _, later, place⟩ := exists_of_link_eq_some growth next
    rw [toNat_toUInt32 few place]
    exact ⟨later, (List.getElem?_eq_some_iff.mp place).1⟩
  · obtain ⟨c, p, _, rfl, _, _, place⟩ := exists_of_link_eq_some growth child
    obtain ⟨m, less, above⟩ := growth.earlier p _ place fun same =>
      growth.nonempty ((List.dropLast_concat.symm.trans same) ▸ member)
    rw [List.dropLast_concat] at above
    have same : m = i.toNat := position_unique growth.nodup above found
    rw [toNat_toUInt32 few place]
    exact ⟨same ▸ less, (List.getElem?_eq_some_iff.mp place).1⟩

end Layout

theorem Lays.unique {b : Arena} (first : a.Lays starts words) (second : b.Lays starts words) :
    a = b := by
  have nodes : a.nodes = b.nodes := Array.ext_getElem? fun k => by rw [first.node, second.node]
  have root : a.root = b.root := first.root.trans second.root.symm
  have wordCount : a.wordCount = b.wordCount := first.wordCount.trans second.wordCount.symm
  obtain ⟨⟩ := a
  simp_all

/-! ## Arenas of words -/

def letters? (a : Arena) (link : Option NodeIndex) : Option (List Char) :=
  (a.siblings? link).map fun chain => chain.map (·.2.letter)

structure Represents (a : Arena) (words : List String) : Prop where
  /-- Links lead forward, and stay in the arena. -/
  forward : ∀ i n j, a.node? i = some n → n.next = some j ∨ n.child = some j →
    i < j ∧ j.toNat < a.nodes.size
  /-- The topmost chain holds the first letters of the words in order of first insertion, -/
  top : a.letters? a.root = some (lettersAfter (words.map String.toList) [])
  /-- and a chain below a node holds those that follow what the node spells. -/
  below : ∀ path i start n, a.Reaches a.root path i start → a.node? i = some n →
    a.letters? n.child = some (lettersAfter (words.map String.toList) start)
  /-- No chain holds a letter twice. -/
  once : ∀ start, (lettersAfter (words.map String.toList) start).Nodup
  /-- Every node is reached by exactly one path. -/
  path : ∀ i : NodeIndex, i.toNat < a.nodes.size → ∃! path, ∃ start, a.Reaches a.root path i start
  /-- What a node spells is a beginning of a word, and no other node spells it. -/
  spelled : ∀ path i start, a.Reaches a.root path i start → i.toNat < a.nodes.size ∧
    start ≠ [] ∧ ∃ word ∈ words, start <+: word.toList
  distinct : ∀ path other i j start, a.Reaches a.root path i start →
    a.Reaches a.root other j start → i = j
  size : a.nodes.size = {start | start ≠ [] ∧ ∃ word ∈ words, start <+: word.toList}.ncard
  wordCount : a.wordCount = {word | word ∈ words ∧ word ≠ ""}.ncard
  contains : ∀ word : String, a.contains? word.toList = some (decide (word ∈ words ∧ word ≠ ""))
  /-- Putting a word in again changes nothing. -/
  again : ∀ word ∈ words, a.insert? word.toList = some a

namespace LaysWords

variable {texts : List String} (lays : a.LaysWords texts)
  (few : (beginnings (texts.map String.toList)).length ≤ 2 ^ 32)

include lays

theorem letters?_link (few : (beginnings (texts.map String.toList)).length ≤ 2 ^ 32)
    (start : List Char) :
    a.letters? (link (beginnings (texts.map String.toList)) start 0) =
      some (lettersAfter (texts.map String.toList) start) := by
  have letters : (places (beginnings (texts.map String.toList)) start 0).map
      (fun place => place.1.getLastD ' ') = lettersAfter (texts.map String.toList) start := by
    have chain := congrArg (List.map fun word => word.getLastD ' ')
      (map_places_beginnings texts start)
    rw [List.map_map, List.map_map] at chain
    rw [← Trie.letters_chainAfter_ofWords]
    refine chain.trans (List.map_congr_left fun n _ => ?_)
    simp
  rw [Arena.letters?, lays.spells.siblings? few, Option.map_some, List.map_map, ← letters]
  rfl

theorem nodeCount_eq : a.nodes.size = (Trie.ofWords texts).nodeCount := by
  rw [lays.size, Trie.nodeCount_ofWords]

theorem wordCount_eq : a.wordCount = (Trie.ofWords texts).wordCount := by
  have perm : ((beginnings (texts.map String.toList)).filter (· ∈ texts.map String.toList)).Perm
      (Trie.ofWords texts).words := by
    rw [List.perm_ext_iff_of_nodup ((Trie.nodup_beginnings _).filter _)
      (Trie.isProper_ofWords texts).nodup_words]
    intro word
    rw [List.mem_filter, decide_eq_true_eq, Trie.mem_beginnings_iff, Trie.mem_toList_words_ofWords]
    constructor
    · exact fun both => ⟨both.2, both.1.1⟩
    · exact fun both => ⟨⟨both.2, word, both.1, List.prefix_refl _⟩, both.1⟩
  rw [lays.wordCount, List.countP_eq_length_filter, perm.length_eq, Trie.length_words]

include few

theorem insert?_of_mem {text : String} (member : text ∈ texts) :
    a.insert? text.toList = some a := by
  have listed : text.toList ∈ texts.map String.toList := List.mem_map_of_mem member
  have same : beginnings ((texts ++ [text]).map String.toList) =
      beginnings (texts.map String.toList) := by
    rw [beginnings_map_concat]
    exact Trie.grown_of_subset fun start nonempty begins =>
      Trie.mem_beginnings_iff.mpr ⟨nonempty, _, listed, begins⟩
  obtain ⟨later, inserted, laid⟩ := lays.insert? text (same ▸ few)
  rw [LaysWords, same] at laid
  have unchanged : later.LaysWords texts := laid.congr fun start _ => by
    rw [List.map_append, List.mem_append, List.map_singleton, List.mem_singleton]
    exact ⟨fun either => either.elim id fun equal => equal ▸ listed, Or.inl⟩
  rw [inserted, unchanged.unique lays]

theorem contains?_eq (word : List Char) :
    a.contains? word = some ((Trie.ofWords texts).contains word) := by
  cases word with
  | nil => rw [Arena.contains?, Arena.containsFrom?, Trie.contains]
  | cons c word => exact (lays.holds few).containsFrom? c word

end LaysWords

theorem ncard_setOf_mem {α : Type} {list : List α} (nodup : list.Nodup) {p : α → Prop}
    (same : ∀ x, x ∈ list ↔ p x) : {x | p x}.ncard = list.length := by
  classical
  rw [← List.toFinset_card_of_nodup nodup, ← Set.ncard_coe_finset]
  congr 1
  ext x
  simp [same]

theorem LaysWords.represents {texts : List String} (lays : a.LaysWords texts)
    (few : (beginnings (texts.map String.toList)).length ≤ 2 ^ 32) : a.Represents texts := by
  have growth := Trie.isGrowth_beginnings (texts.map String.toList)
  have proper := Trie.isProper_ofWords texts
  refine ⟨fun i n j => lays.lt_of_leads growth few, ?top, ?below, fun start => nodup_eraseDups _,
    fun i => lays.existsUnique_path growth few, ?spelled, ?distinct, ?size, ?wordCount, ?contains,
    fun word => lays.insert?_of_mem few⟩
  case top =>
    rw [lays.root]
    exact lays.letters?_link few []
  case below =>
    intro path i start n reached node
    have found := lays.getElem?_of_reaches growth few reached
    rw [Arena.node?, lays.node, found, Option.map_some, Option.some.injEq] at node
    rw [← node]
    exact lays.letters?_link few start
  case spelled =>
    intro path i start reached
    have found := lays.getElem?_of_reaches growth few reached
    obtain ⟨nonempty, word, member, begins⟩ :=
      Trie.mem_beginnings_iff.mp (List.mem_of_getElem? found)
    obtain ⟨text, listed, rfl⟩ := List.mem_map.mp member
    rw [lays.size]
    exact ⟨(List.getElem?_eq_some_iff.mp found).1, nonempty, text, listed, begins⟩
  case distinct =>
    intro path other i j start first second
    exact UInt32.toNat_inj.mp (position_unique growth.nodup
      (lays.getElem?_of_reaches growth few first) (lays.getElem?_of_reaches growth few second))
  case size =>
    rw [lays.size, ncard_setOf_mem growth.nodup fun start => ?_]
    rw [Trie.mem_beginnings_iff]
    simp
  case wordCount =>
    have nodup : ((Trie.ofWords texts).words.map String.ofList).Nodup :=
      proper.nodup_words.map fun _ _ => String.ofList_inj.mp
    rw [lays.wordCount_eq, ← Trie.length_words, ncard_setOf_mem nodup fun word => ?_,
      List.length_map]
    rw [← Trie.mem_words_ofWords, List.mem_map]
    constructor
    · rintro ⟨letters, member, rfl⟩
      rwa [String.toList_ofList]
    · exact fun member => ⟨_, member, String.ofList_toList⟩
  case contains =>
    intro word
    rw [lays.contains?_eq few, Option.some.injEq, Bool.eq_iff_iff, proper.contains_iff,
      Trie.mem_words_ofWords, decide_eq_true_eq]

structure Agrees (a : Arena) (t : Trie) : Prop where
  chains : a.Holds a.root t
  size : a.nodes.size = t.nodeCount
  wordCount : a.wordCount = t.wordCount
  contains : ∀ word, a.contains? word = some (t.contains word)

theorem LaysWords.agrees {texts : List String} (lays : a.LaysWords texts)
    (few : (beginnings (texts.map String.toList)).length ≤ 2 ^ 32) :
    a.Agrees (Trie.ofWords texts) :=
  ⟨lays.holds few, lays.nodeCount_eq, lays.wordCount_eq, lays.contains?_eq few⟩

/-- Words whose nodes can be numbered have an arena, however they come. It is laid out as said
above, and it is the trie of the words. -/
theorem ofWords_represents (words : List String)
    (few : (Trie.ofWords words).nodeCount < 2 ^ 32) :
    ∃ a, ofWords? words = some a ∧ a.Represents words ∧ a.Agrees (Trie.ofWords words) ∧
      ∀ word ∈ words, (Trie.ofWords words).insert word.toList = Trie.ofWords words := by
  rw [Trie.nodeCount_ofWords] at few
  obtain ⟨a, built, lays⟩ := exists_ofWords? (Nat.le_of_lt few)
  exact ⟨a, built, lays.represents (Nat.le_of_lt few), lays.agrees (Nat.le_of_lt few),
    fun word => Trie.insert_ofWords⟩

/-- Words that share beginnings, one of them twice, and the empty text. -/
theorem ofWords_represents_shared :
    let words := ["CAT", "CAR", "B", "CATS", "", "CAT", "A"]
    (Trie.ofWords words).nodeCount < 2 ^ 32 ∧
      ∃ a, ofWords? words = some a ∧ a.nodes.size = 7 ∧ a.wordCount = 5 ∧
        a.letters? a.root = some ['C', 'B', 'A'] := by
  intro words
  have few : (Trie.ofWords words).nodeCount < 2 ^ 32 := by decide
  obtain ⟨a, built, represents, agrees, _⟩ := ofWords_represents words few
  refine ⟨few, a, built, agrees.size, agrees.wordCount, represents.top.trans ?_⟩
  decide

end WordFinder.Arena
