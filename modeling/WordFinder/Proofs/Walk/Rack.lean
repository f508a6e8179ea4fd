import Mathlib
import WordFinder.Proofs.Rack.Supply
import WordFinder.Proofs.Walk.Pattern
import WordFinder.Walk.Rack

/-!
# What rack walks find

A walk over a trie of words in capital letters finds exactly the words that can be spelled from its
rack and that its limits admit, unless the rack has too many classes. A state amounts to the words
that go on from its place in the trie with letters that its slots can supply.
-/
set_option autoImplicit false

namespace WordFinder

open Text (upper)

namespace RackState

variable {star subanagram : Bool} {limits : WalkLimits} {s : RackState} {word : List Char}

def Supplies (star subanagram : Bool) (s : RackState) (rest : List Char) : Prop :=
  (subanagram = true ∨ (Rack.takeLetters s.letters rest).2 = []) ∧
    Rack.canSupply star subanagram (Rack.takeLetters s.letters rest).1 s.classes s.blanks = true

theorem supplies_nil_iff :
    s.Supplies star subanagram [] ↔ subanagram = true ∨ s.slotsLeft = 0 := by
  rw [Supplies, Rack.takeLetters, Rack.canSupply_nil_iff]
  simp only [slotsLeft, Nat.add_eq_zero_iff, List.length_eq_zero_iff]
  tauto

theorem mem_wildSupplies_iff {c : Char} {supply : Supply} :
    supply ∈ s.wildSupplies c ↔
      (∃ k ∈ s.classes, k.accepts c = true ∧ supply = .classSlot k) ∨
        (s.blanks ≠ 0 ∧ supply = .blank) := by
  rw [wildSupplies, List.mem_append, List.mem_map]
  simp only [List.mem_eraseDups, List.mem_filter, and_assoc, eq_comm (b := supply)]
  by_cases none : s.blanks = 0
  · simp [none]
  · simp [none]

/-- A letter without a letter slot takes a class slot or a blank, or the star if there is neither. A
slot that the star could spare is not missed later, so the star is not tried beside a slot. -/
theorem canSupply_cons_iff_supplies {c : Char} {rest : List Char}
    (noSlot : s.letters.contains c ≠ true) :
    Rack.canSupply star subanagram (c :: rest) s.classes s.blanks = true ↔
      (∃ k, .classSlot k ∈ s.supplies star c ∧
          Rack.canSupply star subanagram rest (s.classes.erase k) s.blanks = true) ∨
        (.blank ∈ s.supplies star c ∧
            Rack.canSupply star subanagram rest s.classes (s.blanks - 1) = true) ∨
          (.star ∈ s.supplies star c ∧
            Rack.canSupply star subanagram rest s.classes s.blanks = true) := by
  rw [Rack.canSupply_cons_iff, supplies, if_neg noSlot]
  have classSlot (k : LetterClass) :
      .classSlot k ∈ s.wildSupplies c ↔ k ∈ s.classes ∧ k.accepts c = true := by
    simp [mem_wildSupplies_iff]
  have blank : .blank ∈ s.wildSupplies c ↔ s.blanks ≠ 0 := by
    simp [mem_wildSupplies_iff]
  have noStar : .star ∉ s.wildSupplies c := by
    simp [mem_wildSupplies_iff]
  by_cases spare : ((s.wildSupplies c).isEmpty && star) = true
  · rw [if_pos spare]
    rw [Bool.and_eq_true, List.isEmpty_iff] at spare
    obtain ⟨noWild, starred⟩ := spare
    rw [noWild] at classSlot blank
    simp only [List.not_mem_nil, false_iff, not_and] at classSlot blank
    have noClass : ¬∃ k ∈ s.classes, k.accepts c = true ∧
        Rack.canSupply star subanagram rest (s.classes.erase k) s.blanks = true := by
      intro holds
      obtain ⟨k, member, accepts, _⟩ := holds
      exact classSlot k member accepts
    rw [or_iff_right noClass]
    simp [blank, starred]
  · rw [if_neg spare]
    simp only [classSlot, blank, noStar, false_and, or_false, and_assoc]
    constructor
    · intro either
      rcases either with others | others | ⟨rfl, others⟩
      · exact Or.inl others
      · exact Or.inr others
      · have someWild : s.wildSupplies c ≠ [] := by simpa using spare
        obtain ⟨supply, member⟩ := List.exists_mem_of_ne_nil _ someWild
        rcases mem_wildSupplies_iff.mp member with ⟨k, kMember, accepts, _⟩ | ⟨some, _⟩
        · exact Or.inl ⟨k, kMember, accepts, Rack.canSupply_erase k others⟩
        · exact Or.inr ⟨some, Rack.canSupply_withoutBlank others⟩
    · intro either
      rcases either with others | others
      · exact Or.inl others
      · exact Or.inr (Or.inl others)

theorem supplies_cons_iff {n : TrieNode} {rest : List Char} :
    s.Supplies star subanagram (n.letter :: rest) ↔
      ∃ supply ∈ s.supplies star n.letter, (s.take n supply).Supplies star subanagram rest := by
  by_cases slot : s.letters.contains n.letter = true
  · rw [supplies, if_pos slot, Supplies, Rack.takeLetters_cons_of_mem slot]
    simp [Supplies, take]
  · have noLetterSlot : .letterSlot ∉ s.supplies star n.letter := by
      rw [supplies, if_neg slot]
      split
      · simp
      · simp [mem_wildSupplies_iff]
    rw [Supplies, Rack.takeLetters_cons_of_notMem slot, canSupply_cons_iff_supplies slot]
    constructor
    · intro holds
      obtain ⟨left, ⟨k, member, others⟩ | ⟨member, others⟩ | ⟨member, others⟩⟩ := holds
      · exact ⟨.classSlot k, member, left, others⟩
      · exact ⟨.blank, member, left, others⟩
      · exact ⟨.star, member, left, others⟩
    · intro holds
      obtain ⟨supply, member, left, others⟩ := holds
      cases supply with
      | letterSlot => exact absurd member noLetterSlot
      | classSlot k => exact ⟨left, Or.inl ⟨k, member, others⟩⟩
      | blank => exact ⟨left, Or.inr (Or.inl ⟨member, others⟩)⟩
      | star => exact ⟨left, Or.inr (Or.inr ⟨member, others⟩)⟩

theorem slot_or_star_of_supplies {c : Char} {rest : List Char}
    (supplied : s.Supplies star subanagram (c :: rest)) : s.slotsLeft ≠ 0 ∨ star = true := by
  obtain ⟨supply, tried, _⟩ := (supplies_cons_iff (n := ⟨c, false, .nil⟩)).mp supplied
  rw [supplies] at tried
  split at tried
  · next slot =>
    have := List.length_pos_of_mem (List.contains_iff_mem.mp slot)
    exact Or.inl (by rw [slotsLeft]; omega)
  · split at tried
    · next spare =>
      rw [Bool.and_eq_true] at spare
      exact Or.inr spare.2
    · rcases mem_wildSupplies_iff.mp tried with ⟨k, kMember, _⟩ | ⟨some, _⟩
      · have := List.length_pos_of_mem kMember
        exact Or.inl (by rw [slotsLeft]; omega)
      · exact Or.inl (by rw [slotsLeft]; omega)

/-- The words that a state amounts to: what is spelled so far and a word of its chain. -/
def Totals (star subanagram : Bool) (limits : WalkLimits) (s : RackState) (word : List Char) : Prop :=
  ∃ rest, rest ∈ s.chain.words ∧ s.Supplies star subanagram rest ∧
    (∀ c ∈ rest, limits.allows c = true) ∧ limits.minLength ≤ s.spelled.length + rest.length ∧
      s.spelled.length + rest.length ≤ limits.maxLength ∧
        word = s.spelled.reverse.map Char.toUpper ++ rest

def Adds (star subanagram : Bool) (limits : WalkLimits) (s : RackState) (word : List Char) : Prop :=
  ∃ choice ∈ s.choices star limits,
    choice.2.isComplete subanagram limits choice.1 = true ∧
      word = choice.2.spelled.reverse.map Char.toUpper

theorem mem_choices_iff {n : TrieNode} {later : RackState} :
    (n, later) ∈ s.choices star limits ↔
      n ∈ s.chain.siblings ∧ n.letter.isUpper = true ∧ limits.allows n.letter = true ∧
        s.spelled.length < limits.maxLength ∧
          ∃ supply ∈ s.supplies star n.letter, later = s.take n supply := by
  simp only [choices, List.mem_flatMap, List.mem_filter, List.mem_map, WalkLimits.continues,
    Bool.and_eq_true, decide_eq_true_eq, and_assoc, Prod.mk.injEq]
  constructor
  · intro holds
    obtain ⟨_, sibling, capital, allowed, shorter, supply, member, rfl, rfl⟩ := holds
    exact ⟨sibling, capital, allowed, shorter, supply, member, rfl⟩
  · intro holds
    obtain ⟨sibling, capital, allowed, shorter, supply, member, rfl⟩ := holds
    exact ⟨n, sibling, capital, allowed, shorter, supply, member, rfl, rfl⟩

theorem spelled_take {n : TrieNode} (capital : n.letter.isUpper = true) (supply : Supply) :
    (s.take n supply).spelled.reverse.map Char.toUpper =
        s.spelled.reverse.map Char.toUpper ++ [n.letter] ∧
      (s.take n supply).spelled.length = s.spelled.length + 1 := by
  have marked := Text.toUpper_toLower_of_isUpper capital
  have plain := Text.toUpper_of_isUpper capital
  cases supply <;> simp only [take, List.reverse_cons, List.map_append, List.map_cons,
    List.map_nil, List.length_cons, marked, plain, and_self]

theorem chain_take (n : TrieNode) (supply : Supply) : (s.take n supply).chain = n.child := by
  cases supply <;> rfl

theorem mem_next_iff {later : RackState} :
    later ∈ s.next star limits ↔
      later.isOpen star limits = true ∧ ∃ n, (n, later) ∈ s.choices star limits := by
  rw [next, List.mem_filter, List.mem_map, and_comm]
  constructor
  · intro holds
    obtain ⟨opened, ⟨n, _⟩, chosen, rfl⟩ := holds
    exact ⟨opened, n, chosen⟩
  · intro holds
    obtain ⟨opened, n, chosen⟩ := holds
    exact ⟨opened, (n, later), chosen, rfl⟩

theorem isOpen_of_totals (totals : s.Totals star subanagram limits word) :
    s.isOpen star limits = true := by
  obtain ⟨rest, member, supplied, _, _, short, _⟩ := totals
  cases rest with
  | nil => exact absurd member s.chain.nil_notMem_words
  | cons c rest =>
    obtain ⟨n, sibling, rfl, _⟩ := Trie.mem_words_iff.mp member
    have nodes : s.chain.isEmpty = false := by
      cases chain : s.chain with
      | nil =>
        rw [chain] at sibling
        exact absurd sibling List.not_mem_nil
      | node letter isEnd child next => rfl
    have shorter : s.spelled.length < limits.maxLength := by
      rw [List.length_cons] at short
      omega
    simpa [isOpen, nodes, WalkLimits.continues, shorter] using slot_or_star_of_supplies supplied

theorem adds_or_next_of_totals (capital : s.chain.IsCapital)
    (totals : s.Totals star subanagram limits word) :
    s.Adds star subanagram limits word ∨
      ∃ later ∈ s.next star limits, later.Totals star subanagram limits word := by
  obtain ⟨rest, member, supplied, allowed, long, short, rfl⟩ := totals
  cases rest with
  | nil => exact absurd member s.chain.nil_notMem_words
  | cons c rest =>
    have capitalLetter := (areCapitals_cons.mp (capital _ member)).1
    obtain ⟨n, sibling, rfl, spells⟩ := Trie.mem_words_iff.mp member
    obtain ⟨supply, tried, others⟩ := supplies_cons_iff.mp supplied
    rw [List.length_cons] at long short
    have chosen : (n, s.take n supply) ∈ s.choices star limits := mem_choices_iff.mpr
      ⟨sibling, capitalLetter, allowed _ (List.mem_cons_self ..), by omega, supply, tried, rfl⟩
    obtain ⟨spelled, length⟩ := spelled_take (s := s) capitalLetter supply
    cases rest with
    | nil =>
      have ends : n.isEnd = true := spells
      have enough : limits.minLength ≤ s.spelled.length + 1 := by simpa using long
      have used := supplies_nil_iff.mp others
      refine Or.inl ⟨_, chosen, ?_, by rw [spelled]⟩
      simp [isComplete, ends, length, enough, used]
    | cons d rest =>
      have later : (s.take n supply).Totals star subanagram limits
          (s.spelled.reverse.map Char.toUpper ++ n.letter :: d :: rest) := by
        refine ⟨d :: rest, (chain_take n supply).symm ▸ spells, others, ?_, ?_, ?_, ?_⟩
        · exact fun e member => allowed e (List.mem_cons_of_mem _ member)
        · rw [length]
          omega
        · rw [length]
          omega
        · rw [spelled, List.append_assoc, List.singleton_append]
      exact Or.inr ⟨_, mem_next_iff.mpr ⟨isOpen_of_totals later, n, chosen⟩, later⟩

theorem totals_of_adds (adds : s.Adds star subanagram limits word) :
    s.Totals star subanagram limits word := by
  obtain ⟨⟨n, later⟩, chosen, complete, rfl⟩ := adds
  obtain ⟨sibling, capital, allowed, shorter, supply, tried, rfl⟩ := mem_choices_iff.mp chosen
  obtain ⟨spelled, length⟩ := spelled_take (s := s) capital supply
  simp only [isComplete, Bool.and_eq_true, Bool.or_eq_true, beq_iff_eq, decide_eq_true_eq,
    length] at complete
  obtain ⟨⟨ends, used⟩, long⟩ := complete
  refine ⟨[n.letter], Trie.mem_words_iff.mpr ⟨n, sibling, rfl, ends⟩, ?_, ?_, long, shorter, spelled⟩
  · exact supplies_cons_iff.mpr ⟨supply, tried, supplies_nil_iff.mpr used⟩
  · intro c single
    rw [List.mem_singleton.mp single]
    exact allowed

theorem totals_of_next {later : RackState} (next : later ∈ s.next star limits)
    (totals : later.Totals star subanagram limits word) :
    s.Totals star subanagram limits word := by
  obtain ⟨_, n, chosen⟩ := mem_next_iff.mp next
  obtain ⟨sibling, capital, allowedLetter, _, supply, tried, rfl⟩ := mem_choices_iff.mp chosen
  obtain ⟨rest, member, supplied, allowed, long, short, rfl⟩ := totals
  obtain ⟨spelled, length⟩ := spelled_take (s := s) capital supply
  rw [chain_take] at member
  rw [length] at long short
  cases rest with
  | nil => exact absurd member (Trie.nil_notMem_words _)
  | cons d rest =>
    refine ⟨n.letter :: d :: rest, Trie.mem_words_iff.mpr ⟨n, sibling, rfl, member⟩,
      supplies_cons_iff.mpr ⟨supply, tried, supplied⟩, ?_, ?_, ?_, ?_⟩
    · intro c letter
      rcases List.mem_cons.mp letter with rfl | letter
      · exact allowedLetter
      · exact allowed c letter
    · rw [List.length_cons]
      omega
    · rw [List.length_cons]
      omega
    · rw [spelled, List.append_assoc, List.singleton_append]

theorem totals_iff (capital : s.chain.IsCapital) :
    s.Totals star subanagram limits word ↔
      s.Adds star subanagram limits word ∨
        ∃ later ∈ s.next star limits, later.Totals star subanagram limits word := by
  constructor
  · exact adds_or_next_of_totals capital
  · intro either
    rcases either with adds | ⟨later, next, totals⟩
    · exact totals_of_adds adds
    · exact totals_of_next next totals

theorem isCapital_of_next (capital : s.chain.IsCapital) {later : RackState}
    (next : later ∈ s.next star limits) : later.chain.IsCapital := by
  obtain ⟨_, n, chosen⟩ := mem_next_iff.mp next
  obtain ⟨sibling, _, _, _, supply, _, rfl⟩ := mem_choices_iff.mp chosen
  rw [chain_take]
  exact capital.child sibling

theorem contains_visit (found : MatchSet) (s : RackState) (spelling : String) :
    (visit star subanagram limits found s).contains spelling = true ↔
      found.contains spelling = true ∨ s.Adds star subanagram limits spelling.toList := by
  rw [visit, MatchSet.contains_foldl_insertIf]
  simp only [Adds, ← String.toList_inj, Text.toList_upper, String.toList_ofList]

end RackState

namespace Rack

theorem spells_iff (rack : Rack) {word : String} (capitals : AreCapitals word.toList)
    (subanagram : Bool) (t : Trie) :
    rack.spells word subanagram = true ↔
      word.toList ≠ [] ∧
        (RackState.ofRack rack t).Supplies rack.star subanagram word.toList := by
  have every : word.toList.all Char.isUpper = true := List.all_eq_true.mpr capitals
  simp only [spells, Text.map_toUpper_of_capitals capitals, every, RackState.Supplies,
    RackState.ofRack, Bool.and_eq_true, Bool.or_eq_true, Bool.not_eq_true', and_true,
    List.isEmpty_iff, List.isEmpty_eq_false_iff, and_assoc]

theorem totals_ofRack_iff (rack : Rack) {subanagram : Bool} {limits : WalkLimits} {t : Trie}
    (capital : t.IsCapital) {word : String} :
    (RackState.ofRack rack t).Totals rack.star subanagram limits word.toList ↔
      word.toList ∈ t.words ∧ rack.spells word subanagram = true ∧
        limits.Admits word.toList := by
  constructor
  · intro holds
    obtain ⟨rest, member, supplied, allowed, long, short, same⟩ := holds
    obtain rfl : rest = word.toList := by simpa [RackState.ofRack] using same.symm
    have nonempty : word.toList ≠ [] := by
      intro empty
      rw [empty] at member
      exact Trie.nil_notMem_words t member
    exact ⟨member, (spells_iff rack (capital _ member) subanagram t).mpr ⟨nonempty, supplied⟩,
      by simpa [RackState.ofRack] using long, by simpa [RackState.ofRack] using short, allowed⟩
  · intro holds
    obtain ⟨member, spelled, admits⟩ := holds
    have supplied := ((spells_iff rack (capital _ member) subanagram t).mp spelled).2
    exact ⟨word.toList, member, supplied, admits.allowed,
      by simpa [RackState.ofRack] using admits.long,
      by simpa [RackState.ofRack] using admits.short, by simp [RackState.ofRack]⟩

theorem slot_or_star_of_spells (rack : Rack) {subanagram : Bool} {t : Trie} {word : String}
    (capitals : AreCapitals word.toList) (spelled : rack.spells word subanagram = true) :
    (RackState.ofRack rack t).slotsLeft ≠ 0 ∨ rack.star = true := by
  obtain ⟨nonempty, supplied⟩ := (spells_iff rack capitals subanagram t).mp spelled
  obtain ⟨c, rest, letters⟩ := List.exists_cons_of_ne_nil nonempty
  rw [letters] at supplied
  exact RackState.slot_or_star_of_supplies supplied

/-- A walk over words in capital letters finds what can be spelled from the rack and what the limits
admit, unless the rack has too many classes. -/
theorem contains_wordsIn (rack : Rack) (subanagram : Bool) (limits : WalkLimits) {t : Trie}
    (capital : t.IsCapital) (word : String) :
    (rack.wordsIn subanagram limits t).contains word = true ↔
      rack.classes.length ≤ maxClasses ∧ word.toList ∈ t.words ∧
        rack.spells word subanagram = true ∧ limits.Admits word.toList := by
  rw [wordsIn]
  split
  · next useless =>
    rw [MatchSet.contains_empty]
    simp only [Bool.false_eq_true, false_iff, not_and]
    intro few member spelled
    simp only [Bool.or_eq_true, Bool.and_eq_true, beq_iff_eq, Bool.not_eq_true',
      decide_eq_true_eq] at useless
    rcases useless with ⟨noSlot, noStar⟩ | many
    · rcases rack.slot_or_star_of_spells (t := t) (capital _ member) spelled with slot | starred
      · exact absurd noSlot slot
      · rw [noStar] at starred
        contradiction
    · omega
  · next useful =>
    have few : rack.classes.length ≤ maxClasses := by
      simp only [Bool.or_eq_true, decide_eq_true_eq, not_or] at useful
      omega
    have run := Walk.holds_run (walk rack.star subanagram limits)
      (fun found => found.contains word = true)
      (fun s => s.Adds rack.star subanagram limits word.toList)
      (fun s => s.Totals rack.star subanagram limits word.toList) (fun s => s.chain.IsCapital)
      (fun found s _ => RackState.contains_visit found s word)
      (fun _ capital _ next => RackState.isCapital_of_next capital next)
      (fun _ capital => RackState.totals_iff capital)
      .empty [.ofRack rack t] (by simpa [RackState.ofRack] using capital)
    rw [run, MatchSet.contains_empty]
    simp only [Bool.false_eq_true, false_or, List.mem_singleton, exists_eq_left, few, true_and]
    exact totals_ofRack_iff rack capital

end Rack

end WordFinder
