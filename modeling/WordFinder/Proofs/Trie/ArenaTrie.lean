import Mathlib
import WordFinder.Proofs.Trie.ArenaLayout
import WordFinder.Proofs.Trie.Chains

/-!
# The trie in an arena

An arena of words holds the trie of the same words, chain by chain: both list the letters of a chain
in the order in which they were first inserted.
-/
set_option autoImplicit false

namespace WordFinder.Arena

open Trie (beginnings)

variable {a : Arena} {words : List String}

/-! ## Building an arena -/

def LaysWords (a : Arena) (words : List String) : Prop :=
  a.Lays (beginnings (words.map String.toList)) (words.map String.toList)

theorem beginnings_map_concat (words : List String) (word : String) :
    beginnings ((words ++ [word]).map String.toList) =
      Trie.grown (beginnings (words.map String.toList)) [] word.toList := by
  rw [List.map_append, List.map_singleton, Trie.beginnings_concat]

theorem LaysWords.insert? (lays : a.LaysWords words) (word : String)
    (few : (beginnings ((words ++ [word]).map String.toList)).length ≤ 2 ^ 32) :
    ∃ later, a.insert? word.toList = some later ∧ later.LaysWords (words ++ [word]) := by
  have growth := Trie.isGrowth_beginnings (words.map String.toList)
  have known : ∀ other ∈ words.map String.toList, other ≠ [] →
      other ∈ beginnings (words.map String.toList) := fun other member nonempty =>
    Trie.mem_beginnings_iff.mpr ⟨nonempty, other, member, List.prefix_refl _⟩
  rw [beginnings_map_concat] at few
  obtain ⟨later, inserted, laid⟩ :=
    lays.insertFrom? growth few (fun nonempty => absurd rfl nonempty) known
  rw [number?_of_notMem growth.nonempty, ← lays.root] at inserted
  refine ⟨later, inserted, ?_⟩
  rw [LaysWords, beginnings_map_concat, List.map_append, List.map_singleton]
  exact laid

theorem exists_ofWords? (few : (beginnings (words.map String.toList)).length ≤ 2 ^ 32) :
    ∃ a, ofWords? words = some a ∧ a.LaysWords words := by
  induction words using List.reverseRecOn with
  | nil => exact ⟨empty, rfl, lays_empty _⟩
  | append_singleton words word ih =>
    have fewer : (beginnings (words.map String.toList)).length ≤ 2 ^ 32 := by
      refine Nat.le_trans ?_ few
      rw [beginnings_map_concat]
      exact Trie.length_le_length_grown _ _ _
    obtain ⟨a, built, lays⟩ := ih fewer
    obtain ⟨later, inserted, laid⟩ := lays.insert? word few
    refine ⟨later, ?_, laid⟩
    rw [ofWords?, List.foldlM_append, ← ofWords?, built]
    simpa using inserted

/-! ## Chains -/

/-- The chain that a link leads to, with all that is below it, is a given trie. -/
def Holds (a : Arena) : Option NodeIndex → Trie → Prop
  | link, .nil => link = none
  | link, .node letter isEnd child next =>
    ∃ i n, link = some i ∧ a.node? i = some n ∧ n.letter = letter ∧ n.isEnd = isEnd ∧
      a.Holds n.child child ∧ a.Holds n.next next

theorem map_places_beginnings (words : List String) (start : List Char) :
    (places (beginnings (words.map String.toList)) start 0).map Prod.fst =
      ((Trie.ofWords words).chainAfter start).siblings.map fun n => start ++ [n.letter] := by
  have trie : ((Trie.ofWords words).chainAfter start).siblings.map (fun n => start ++ [n.letter]) =
      ((Trie.ofWords words).chainAfter start).letters.map fun c => start ++ [c] := by
    rw [Trie.letters, List.map_map]
    rfl
  rw [trie, Trie.letters_chainAfter_ofWords, ← Trie.filter_beginnings, places, List.drop_zero]
  conv_rhs => rw [← List.zipIdx_map_fst 0 (beginnings _), List.filter_map]
  rfl

/-- A part of a chain in the arena is a part `t` of a chain in the trie, if the same letters come in
it. The induction is on the part of the chain and what is below it; the chains below are whole
ones. -/
theorem LaysWords.holds_part (lays : a.LaysWords words)
    (few : (beginnings (words.map String.toList)).length ≤ 2 ^ 32) {t : Trie} {start : List Char}
    {k : Nat}
    (letters : (places (beginnings (words.map String.toList)) start k).map Prod.fst =
      t.siblings.map fun n => start ++ [n.letter])
    (part : ∀ n ∈ t.siblings, n ∈ ((Trie.ofWords words).chainAfter start).siblings) :
    a.Holds (link (beginnings (words.map String.toList)) start k) t := by
  induction t generalizing start k with
  | nil =>
    rw [Trie.siblings, List.map_nil, List.map_eq_nil_iff] at letters
    rw [link, letters]
    rfl
  | node letter isEnd child next ihChild ihNext =>
    have proper := Trie.isProper_ofWords words
    rw [Trie.siblings, List.forall_mem_cons] at part
    rw [Trie.siblings, List.map_cons, List.map_eq_cons_iff] at letters
    obtain ⟨⟨word, j⟩, rest, chain, rfl, others⟩ := letters
    have member : (start ++ [letter], j) ∈ places (beginnings (words.map String.toList)) start k :=
      chain ▸ List.mem_cons_self ..
    obtain ⟨_, found, _⟩ := mem_places_iff.mp member
    have below : (Trie.ofWords words).chainAfter (start ++ [letter]) = child :=
      proper.chainAfter_concat part.1
    refine ⟨j.toUInt32, _, by rw [link, chain]; rfl, lays.spells.node? few found, ?_, ?_, ?_, ?_⟩
    · simp [nodeAt]
    · have ends := Trie.isEnd_chainAfter_ofWords part.1
      rw [Bool.eq_iff_iff, ends, nodeAt, List.contains_iff_mem]
    · refine ihChild ?_ fun n member => by rwa [below]
      rw [map_places_beginnings, below]
    · rw [nodeAt, List.dropLast_concat]
      refine ihNext ?_ part.2
      rw [← places_tail chain, others]

theorem LaysWords.holds (lays : a.LaysWords words)
    (few : (beginnings (words.map String.toList)).length ≤ 2 ^ 32) :
    a.Holds a.root (Trie.ofWords words) := by
  rw [lays.root]
  exact lays.holds_part few (map_places_beginnings words []) fun n member => member

theorem exists_holds_ofWords (few : (Trie.ofWords words).nodeCount < 2 ^ 32) :
    ∃ a, ofWords? words = some a ∧ a.Holds a.root (Trie.ofWords words) := by
  rw [Trie.nodeCount_ofWords] at few
  obtain ⟨a, built, lays⟩ := exists_ofWords? (Nat.le_of_lt few)
  exact ⟨a, built, lays.holds (Nat.le_of_lt few)⟩

theorem Holds.siblings? {link : Option NodeIndex} {t : Trie} (holds : a.Holds link t) :
    ∃ chain, a.siblings? link = some chain ∧
      List.Forall₂ (fun sibling n => a.node? sibling.1 = some sibling.2 ∧
        sibling.2.letter = n.letter ∧ sibling.2.isEnd = n.isEnd ∧
          a.Holds sibling.2.child n.child) chain t.siblings := by
  induction t generalizing link with
  | nil =>
    obtain rfl : link = none := holds
    exact ⟨[], siblings?_none a, List.Forall₂.nil⟩
  | node letter isEnd child next _ ih =>
    obtain ⟨i, n, rfl, found, rfl, rfl, below, behind⟩ := holds
    obtain ⟨chain, listed, alike⟩ := ih behind
    refine ⟨(i, n) :: chain, ?_, List.Forall₂.cons ⟨found, rfl, rfl, below⟩ alike⟩
    rw [siblings?_some, found]
    simp [listed]

theorem Holds.unique {link : Option NodeIndex} {t u : Trie} (first : a.Holds link t)
    (second : a.Holds link u) : t = u := by
  induction t generalizing link u with
  | nil =>
    obtain rfl : link = none := first
    cases u with
    | nil => rfl
    | node => simp [Holds] at second
  | node letter isEnd child next ihChild ihNext =>
    obtain ⟨i, n, rfl, found, rfl, rfl, below, behind⟩ := first
    cases u with
    | nil => simp [Holds] at second
    | node =>
      obtain ⟨j, m, same, foundSame, rfl, rfl, belowSame, behindSame⟩ := second
      obtain rfl : i = j := Option.some.inj same
      obtain rfl : n = m := Option.some.inj (found.symm.trans foundSame)
      rw [ihChild below belowSame, ihNext behind behindSame]

/-! ## Looking words up -/

theorem Holds.find? {link : Option NodeIndex} {t : Trie} (holds : a.Holds link t) (c : Char) :
    (a.find? link c = some none ∧ t.find? c = none) ∨
      ∃ i n m, a.find? link c = some (some i) ∧ a.node? i = some n ∧ t.find? c = some m ∧
        n.isEnd = m.isEnd ∧ a.Holds n.child m.child := by
  induction t generalizing link with
  | nil =>
    obtain rfl : link = none := holds
    exact Or.inl ⟨by simp [Arena.find?, siblings?_none], rfl⟩
  | node letter isEnd child next _ ih =>
    obtain ⟨i, n, rfl, found, rfl, rfl, below, behind⟩ := holds
    obtain ⟨chain, listed, _⟩ := behind.siblings?
    have step : a.find? (some i) c =
        if n.letter = c then some (some i) else a.find? n.next c := by
      by_cases same : n.letter = c <;>
        simp [Arena.find?, siblings?_some, found, listed, same]
    rw [step, Trie.find?]
    by_cases same : n.letter = c
    · rw [if_pos same, if_pos same]
      exact Or.inr ⟨i, n, _, rfl, found, rfl, rfl, below⟩
    · rw [if_neg same, if_neg same]
      exact ih behind

theorem Holds.containsFrom? {link last : Option NodeIndex} {t : Trie} (holds : a.Holds link t)
    (c : Char) (word : List Char) :
    a.containsFrom? link last (c :: word) = some (t.contains (c :: word)) := by
  induction word generalizing link last t c with
  | nil =>
    rw [Arena.containsFrom?, Trie.contains]
    rcases holds.find? c with ⟨missing, absent⟩ | ⟨i, n, m, found, node, known, ends, _⟩
    · simp [missing, absent]
    · simp [found, known, node, Arena.containsFrom?, ends]
  | cons d word ih =>
    rw [Arena.containsFrom?, Trie.contains]
    rcases holds.find? c with ⟨missing, absent⟩ | ⟨i, n, m, found, node, known, _, below⟩
    · simp [missing, absent]
    · simp [found, known, node, ih below]

end WordFinder.Arena
