import Mathlib
import WordFinder.Proofs.Trie.Beginnings
import WordFinder.Trie.Arena

/-!
# How an arena lays out a trie

The node with a given number spells the beginning with that number, in the order in which beginnings
first come up. This decides all links: a node is followed in its chain by the next beginning that
differs from its own in the last letter only, and the chain below it starts with the first beginning
that is one letter longer.
-/
set_option autoImplicit false

namespace WordFinder.Arena

open Trie (beginnings grown)

variable {a : Arena} {starts words : List (List Char)} {start word : List Char} {c : Char}
  {k j : Nat}

/-- The beginnings from some position on that go on from `start` by one letter, each with its
position. -/
def places (starts : List (List Char)) (start : List Char) (k : Nat) : List (List Char × Nat) :=
  ((starts.drop k).zipIdx k).filter fun place => place.1.dropLast = start

theorem mem_places_iff :
    (word, j) ∈ places starts start k ↔ k ≤ j ∧ starts[j]? = some word ∧ word.dropLast = start := by
  rw [places, List.mem_filter, List.mk_mem_zipIdx_iff_le_and_getElem?_sub, List.getElem?_drop,
    decide_eq_true_eq, and_assoc]
  refine and_congr_right fun later => ?_
  rw [Nat.add_sub_cancel' later]

theorem places_eq_nil_iff :
    places starts start k = [] ↔
      ∀ j word, k ≤ j → starts[j]? = some word → word.dropLast ≠ start := by
  rw [List.eq_nil_iff_forall_not_mem]
  constructor
  · intro none j word later found same
    exact none (word, j) (mem_places_iff.mpr ⟨later, found, same⟩)
  · intro none place member
    obtain ⟨later, found, same⟩ := mem_places_iff.mp member
    exact none place.2 place.1 later found same

theorem places_step (found : starts[k]? = some word) :
    places starts start k =
      (if word.dropLast = start then [(word, k)] else []) ++ places starts start (k + 1) := by
  obtain ⟨inside, rfl⟩ := List.getElem?_eq_some_iff.mp found
  rw [places, List.drop_eq_getElem_cons inside, List.zipIdx_cons, List.filter_cons]
  by_cases same : starts[k].dropLast = start <;> simp [same, places]

/-- What comes behind a place of a chain starts right behind its position. -/
theorem places_tail {k : Nat} {rest : List (List Char × Nat)}
    (first : places starts start k = (word, j) :: rest) :
    rest = places starts start (j + 1) := by
  have inside : k < starts.length := by
    have member : (word, j) ∈ places starts start k := first ▸ List.mem_cons_self ..
    obtain ⟨later, found, _⟩ := mem_places_iff.mp member
    exact Nat.lt_of_le_of_lt later (List.getElem?_eq_some_iff.mp found).1
  have found : starts[k]? = some starts[k] := List.getElem?_eq_getElem inside
  rw [places_step found] at first
  split at first
  · rw [List.singleton_append, List.cons.injEq, Prod.mk.injEq] at first
    rw [← first.2, first.1.2]
  · rw [List.nil_append] at first
    exact places_tail first
termination_by starts.length - k

theorem places_concat (inside : k ≤ starts.length) (new : List Char) :
    places (starts ++ [new]) start k =
      places starts start k ++ if new.dropLast = start then [(new, starts.length)] else [] := by
  rw [places, List.drop_append_of_le_length inside, List.zipIdx_append, List.filter_append,
    List.length_drop, Nat.add_sub_cancel' inside, places]
  by_cases same : new.dropLast = start <;> simp [same]

/-- The link to the first of the beginnings from some position on that go on from `start`. -/
def link (starts : List (List Char)) (start : List Char) (k : Nat) : Option NodeIndex :=
  (places starts start k).head?.map fun place => place.2.toUInt32

def nodeAt (starts words : List (List Char)) (k : Nat) (start : List Char) : ArenaNode where
  letter := start.getLastD ' '
  isEnd := words.contains start
  next := link starts start.dropLast (k + 1)
  child := link starts start 0

/-- The nodes of an arena spell the given beginnings in their order. -/
def Spells (a : Arena) (starts words : List (List Char)) : Prop :=
  ∀ k start, starts[k]? = some start → a.nodes[k]? = some (nodeAt starts words k start)

theorem toNat_toUInt32 (few : starts.length ≤ 2 ^ 32) (found : starts[k]? = some start) :
    k.toUInt32.toNat = k := by
  have inside := (List.getElem?_eq_some_iff.mp found).1
  rw [Nat.toUInt32, UInt32.toNat_ofNat']
  exact Nat.mod_eq_of_lt (Nat.lt_of_lt_of_le inside few)

theorem Spells.node? (spells : a.Spells starts words) (few : starts.length ≤ 2 ^ 32)
    (found : starts[k]? = some start) :
    a.node? k.toUInt32 = some (nodeAt starts words k start) := by
  rw [Arena.node?, toNat_toUInt32 few found]
  exact spells k start found

theorem Spells.siblings? (spells : a.Spells starts words) (few : starts.length ≤ 2 ^ 32)
    (start : List Char) (k : Nat) :
    a.siblings? (link starts start k) =
      some ((places starts start k).map fun place =>
        (place.2.toUInt32, nodeAt starts words place.2 place.1)) := by
  generalize chain : places starts start k = list
  induction list generalizing k with
  | nil => simp [link, chain, siblings?_none]
  | cons place rest ih =>
    obtain ⟨word, j⟩ := place
    have member : (word, j) ∈ places starts start k := chain ▸ List.mem_cons_self ..
    obtain ⟨_, found, same⟩ := mem_places_iff.mp member
    have others := ih (j + 1) (places_tail chain).symm
    have next : (nodeAt starts words j word).next = link starts start (j + 1) := by
      rw [nodeAt, same]
    rw [link, chain, List.head?_cons, Option.map_some, siblings?_some, spells.node? few found]
    simp [next, others]

/-! ## Numbers of beginnings -/

def number? (starts : List (List Char)) (start : List Char) : Option NodeIndex :=
  (starts.idxOf? start).map Nat.toUInt32

theorem number?_of_getElem? (nodup : starts.Nodup) (found : starts[k]? = some start) :
    number? starts start = some k.toUInt32 := by
  obtain ⟨inside, rfl⟩ := List.getElem?_eq_some_iff.mp found
  have here : starts.idxOf? starts[k] = some k := by
    rw [List.idxOf?_eq_some_iff]
    refine ⟨inside, rfl, fun j less same => ?_⟩
    have := (nodup.getElem_inj_iff).mp same
    omega
  rw [number?, here, Option.map_some]

theorem number?_of_notMem (absent : start ∉ starts) : number? starts start = none := by
  rw [number?, List.idxOf?_eq_none_iff.mpr absent, Option.map_none]

theorem letter_nodeAt_iff (nonempty : word ≠ []) (shorter : word.dropLast = start) :
    (nodeAt starts words k word).letter = c ↔ word = start ++ [c] := by
  rw [nodeAt, List.getLastD_eq_getLast?, List.getLast?_eq_some_getLast nonempty, Option.getD_some]
  constructor
  · rintro rfl
    rw [← shorter, List.dropLast_append_getLast nonempty]
  · intro same
    simp only [same, List.getLast_append_singleton]

theorem Spells.find? (spells : a.Spells starts words) (growth : Trie.IsGrowth starts)
    (few : starts.length ≤ 2 ^ 32) (start : List Char) (c : Char) :
    a.find? (link starts start 0) c = some (number? starts (start ++ [c])) := by
  have letter : ∀ place ∈ places starts start 0,
      ((nodeAt starts words place.2 place.1).letter == c) = true ↔
        starts[place.2]? = some (start ++ [c]) := by
    intro place member
    obtain ⟨_, found, shorter⟩ := mem_places_iff.mp member
    have nonempty : place.1 ≠ [] := fun same =>
      growth.nonempty (same ▸ List.mem_of_getElem? found)
    rw [beq_iff_eq, letter_nodeAt_iff nonempty shorter, found, Option.some.injEq]
  rw [Arena.find?, spells.siblings? few]
  simp only [Option.pure_def, Option.bind_eq_bind, Option.bind_some, List.find?_map,
    Option.map_map, Option.some.injEq]
  cases search : (places starts start 0).find?
      ((fun sibling : NodeIndex × ArenaNode => sibling.2.letter == c) ∘ fun place =>
        (place.2.toUInt32, nodeAt starts words place.2 place.1)) with
  | none =>
    rw [List.find?_eq_none] at search
    have absent : start ++ [c] ∉ starts := by
      intro member
      obtain ⟨j, found⟩ := List.mem_iff_getElem?.mp member
      have place : (start ++ [c], j) ∈ places starts start 0 :=
        mem_places_iff.mpr ⟨Nat.zero_le _, found, List.dropLast_concat⟩
      exact search _ place ((letter _ place).mpr found)
    rw [number?_of_notMem absent, Option.map_none]
  | some place =>
    have holds := List.find?_some search
    have found := (letter place (List.mem_of_find?_eq_some search)).mp holds
    rw [number?_of_getElem? growth.nodup found, Option.map_some]
    rfl

/-! ## Arenas of words -/

/-- The arena holds a node for each of the given beginnings, in their order, and marks those that
are words. -/
structure Lays (a : Arena) (starts words : List (List Char)) : Prop where
  node (k : Nat) : a.nodes[k]? = starts[k]?.map (nodeAt starts words k)
  root : a.root = link starts [] 0
  wordCount : a.wordCount = starts.countP (· ∈ words)

theorem Lays.spells (lays : a.Lays starts words) : a.Spells starts words := by
  intro k start found
  rw [lays.node, found, Option.map_some]

theorem Lays.size (lays : a.Lays starts words) : a.nodes.size = starts.length := by
  have outside (k : Nat) : a.nodes.size ≤ k ↔ starts.length ≤ k := by
    rw [← Array.getElem?_eq_none_iff, lays.node, Option.map_eq_none_iff, List.getElem?_eq_none_iff]
  exact Nat.le_antisymm ((outside _).mpr (Nat.le_refl _)) ((outside _).mp (Nat.le_refl _))

theorem lays_empty (words : List (List Char)) : empty.Lays [] words := by
  refine ⟨fun k => ?_, rfl, rfl⟩
  simp [empty]

theorem link_concat (inside : k ≤ starts.length) (new : List Char) :
    link (starts ++ [new]) start k =
      (link starts start k).or
        (if new.dropLast = start then some starts.length.toUInt32 else none) := by
  rw [link, places_concat inside, List.head?_append, Option.map_or, ← link]
  split <;> rfl

theorem link_eq_none_iff :
    link starts start k = none ↔
      ∀ j word, k ≤ j → starts[j]? = some word → word.dropLast ≠ start := by
  rw [link, Option.map_eq_none_iff, List.head?_eq_none_iff, places_eq_nil_iff]

theorem link_concat_eq {other : List Char} (inside : k ≤ starts.length)
    (known : start = other → link starts other k ≠ none) :
    link (starts ++ [start ++ [c]]) other k = link starts other k := by
  rw [link_concat inside, List.dropLast_concat]
  split
  · next same =>
    obtain ⟨i, leads⟩ := Option.ne_none_iff_exists'.mp (known same)
    rw [leads, Option.some_or]
  · exact Option.or_none

theorem link_concat_new (inside : k ≤ starts.length) (open? : link starts start k = none) :
    link (starts ++ [start ++ [c]]) start k = some starts.length.toUInt32 := by
  rw [link_concat inside, List.dropLast_concat, open?, if_pos rfl, Option.none_or]

theorem next_concat_eq (none : link starts start 0 = none) (found : starts[k]? = some word) :
    link (starts ++ [start ++ [c]]) word.dropLast (k + 1) = link starts word.dropLast (k + 1) :=
  link_concat_eq (List.getElem?_eq_some_iff.mp found).1 fun same =>
    absurd same.symm (link_eq_none_iff.mp none k word (Nat.zero_le _) found)

theorem nodeAt_new (growth : Trie.IsGrowth starts) (new : start ++ [c] ∉ starts)
    (notWord : start ++ [c] ∉ words) :
    nodeAt (starts ++ [start ++ [c]]) words starts.length (start ++ [c]) =
      ⟨c, false, none, none⟩ := by
  have next : link (starts ++ [start ++ [c]]) start (starts.length + 1) = none := by
    rw [link_eq_none_iff]
    intro j word later found
    have := (List.getElem?_eq_some_iff.mp found).1
    rw [List.length_append, List.length_singleton] at this
    omega
  have child : link (starts ++ [start ++ [c]]) (start ++ [c]) 0 = none := by
    rw [link_concat (Nat.zero_le _), List.dropLast_concat, if_neg (by simp), Option.or_none,
      link_eq_none_iff]
    intro j word _ found same
    obtain ⟨i, _, above⟩ := growth.earlier j word found (by simp [same])
    exact new (same ▸ List.mem_of_getElem? above)
  rw [nodeAt, List.dropLast_concat, next, child]
  simp [notWord]

/-- An arena in which a new node was put behind the old ones lays out one more beginning, if the old
nodes and the root link to the new node where no other node was in its place. -/
theorem Lays.concat (lays : a.Lays starts words) (growth : Trie.IsGrowth starts)
    (new : start ++ [c] ∉ starts) (notWord : start ++ [c] ∉ words) {later : Arena}
    (size : later.nodes.size = starts.length + 1)
    (fresh : later.nodes[starts.length]? = some ⟨c, false, none, none⟩)
    (old : ∀ k word, starts[k]? = some word →
      later.nodes[k]? = some (nodeAt (starts ++ [start ++ [c]]) words k word))
    (root : later.root = link (starts ++ [start ++ [c]]) [] 0)
    (count : later.wordCount = a.wordCount) :
    later.Lays (starts ++ [start ++ [c]]) words where
  node k := by
    rcases Nat.lt_trichotomy k starts.length with inside | rfl | outside
    · rw [List.getElem?_append_left inside, List.getElem?_eq_getElem inside]
      exact old k _ (List.getElem?_eq_getElem inside)
    · rw [fresh, List.getElem?_concat_length, Option.map_some, nodeAt_new growth new notWord]
    · rw [Array.getElem?_eq_none (by omega), List.getElem?_eq_none (by simpa using outside),
        Option.map_none]
  root := root
  wordCount := by
    rw [count, lays.wordCount, List.countP_append]
    simp [notWord]

theorem places_getLast (last : (places starts start k).getLast? = some (word, j)) :
    (word, j) ∈ places starts start k ∧ link starts start (j + 1) = none := by
  refine ⟨List.mem_of_getLast? last, ?_⟩
  generalize chain : places starts start k = list at last
  induction list generalizing k with
  | nil => contradiction
  | cons place rest ih =>
    have others := places_tail chain
    cases rest with
    | nil =>
      rw [List.getLast?_singleton, Option.some.injEq] at last
      rw [link, Option.map_eq_none_iff, List.head?_eq_none_iff, others, last]
    | cons second rest =>
      rw [List.getLast?_cons_cons] at last
      exact ih others.symm last

def withNode (a : Arena) (n : ArenaNode) : Arena :=
  { a with nodes := a.nodes.push n }

theorem Lays.getElem?_withNode (lays : a.Lays starts words) (n : ArenaNode)
    (found : starts[k]? = some word) :
    (a.withNode n).nodes[k]? = some (nodeAt starts words k word) := by
  have inside := (List.getElem?_eq_some_iff.mp found).1
  rw [withNode, Array.getElem?_push, if_neg (by rw [lays.size]; omega)]
  exact lays.spells k word found

theorem update?_eq {i : NodeIndex} (inside : i.toNat < a.nodes.size)
    (change : ArenaNode → ArenaNode) :
    a.update? i change = some { a with nodes := a.nodes.modify i.toNat change } :=
  if_pos inside

section Append

variable (lays : a.Lays starts words) (growth : Trie.IsGrowth starts)
  (room : starts.length < 2 ^ 32) (new : start ++ [c] ∉ starts) (notWord : start ++ [c] ∉ words)

include lays growth room new notWord

theorem Lays.linkNode {change : ArenaNode → ArenaNode} (found : starts[j]? = some word)
    (here : change (nodeAt starts words j word) = nodeAt (starts ++ [start ++ [c]]) words j word)
    (elsewhere : ∀ k other, j ≠ k → starts[k]? = some other →
      nodeAt starts words k other = nodeAt (starts ++ [start ++ [c]]) words k other)
    (top : link (starts ++ [start ++ [c]]) [] 0 = link starts [] 0) :
    ∃ later, (a.withNode ⟨c, false, none, none⟩).update? j.toUInt32 change = some later ∧
      later.Lays (starts ++ [start ++ [c]]) words := by
  have inside := (List.getElem?_eq_some_iff.mp found).1
  have number := toNat_toUInt32 (Nat.le_of_lt room) found
  refine ⟨_, update?_eq (by rw [number]; simp [withNode, lays.size]; omega) _,
    lays.concat growth new notWord ?size ?fresh (fun k other otherFound => ?old) ?root rfl⟩
  case size => simp [withNode, lays.size]
  case root => rw [top, ← lays.root]; rfl
  case fresh =>
    simp only [number]
    rw [Array.getElem?_modify, if_neg (by omega), withNode, ← lays.size, Array.getElem?_push_size]
  case old =>
    simp only [number]
    rw [Array.getElem?_modify, lays.getElem?_withNode _ otherFound]
    by_cases same : j = k
    · subst same
      obtain rfl : word = other := by simpa [found] using otherFound
      rw [if_pos rfl, Option.map_some, here]
    · rw [if_neg same, elsewhere k other same otherFound]

theorem Lays.linkNext (last : (places starts start 0).getLast? = some (word, j)) :
    ∃ later, (a.withNode ⟨c, false, none, none⟩).update? j.toUInt32
        (fun n => { n with next := some starts.length.toUInt32 }) = some later ∧
      later.Lays (starts ++ [start ++ [c]]) words := by
  obtain ⟨member, ended⟩ := places_getLast last
  obtain ⟨_, found, shorter⟩ := mem_places_iff.mp member
  have known : link starts start 0 ≠ none := fun none =>
    link_eq_none_iff.mp none j word (Nat.zero_le _) found shorter
  have child (other : List Char) : link (starts ++ [start ++ [c]]) other 0 = link starts other 0 :=
    link_concat_eq (Nat.zero_le _) fun same => same ▸ known
  refine lays.linkNode growth room new notWord found ?here
    (fun k other apart otherFound => ?elsewhere) (child [])
  case here =>
    have inside := (List.getElem?_eq_some_iff.mp found).1
    rw [nodeAt, nodeAt, child, shorter, link_concat_new inside ended]
  case elsewhere =>
    have inside := (List.getElem?_eq_some_iff.mp otherFound).1
    rw [nodeAt, nodeAt, child, link_concat_eq inside fun shared none => ?_]
    rcases Nat.lt_or_gt_of_ne apart with before | after
    · exact link_eq_none_iff.mp ended k other before otherFound shared.symm
    · exact link_eq_none_iff.mp none j word after found (shared ▸ shorter)

theorem Lays.linkChild (none : link starts start 0 = none) (found : starts[j]? = some start) :
    ∃ later, (a.withNode ⟨c, false, .none, .none⟩).update? j.toUInt32
        (fun n => { n with child := some starts.length.toUInt32 }) = some later ∧
      later.Lays (starts ++ [start ++ [c]]) words := by
  have nonempty : start ≠ [] := fun same => growth.nonempty (same ▸ List.mem_of_getElem? found)
  refine lays.linkNode growth room new notWord found ?here
    (fun k other apart otherFound => ?elsewhere)
    (link_concat_eq (Nat.zero_le _) fun same => absurd same nonempty)
  case here =>
    rw [nodeAt, nodeAt, next_concat_eq none found, link_concat_new (Nat.zero_le _) none]
  case elsewhere =>
    rw [nodeAt, nodeAt, next_concat_eq none otherFound,
      link_concat_eq (Nat.zero_le _) fun shared => absurd shared ?_]
    rintro rfl
    exact apart (position_unique growth.nodup found otherFound)

omit room in
theorem Lays.linkRoot (none : link starts [] 0 = none) (top : start = []) :
    ({ a.withNode ⟨c, false, .none, .none⟩ with root := some starts.length.toUInt32 } : Arena).Lays
      (starts ++ [start ++ [c]]) words := by
  subst top
  refine lays.concat growth new notWord ?size ?fresh (fun k other otherFound => ?old) ?root rfl
  case size => simp [withNode, lays.size]
  case root => rw [link_concat_new (Nat.zero_le _) none]
  case fresh => rw [withNode, ← lays.size, Array.getElem?_push_size]
  case old =>
    have child : [] ≠ other := fun same => growth.nonempty (same ▸ List.mem_of_getElem? otherFound)
    rw [nodeAt, next_concat_eq none otherFound,
      link_concat_eq (Nat.zero_le _) fun same => absurd same child]
    exact lays.getElem?_withNode _ otherFound

/-- A new node is put at the end of its chain, below its parent or at the root. -/
theorem Lays.append? (above : start ≠ [] → start ∈ starts) :
    ∃ later, a.append? (link starts start 0) (number? starts start) c =
        some (later, starts.length.toUInt32) ∧
      later.Lays (starts ++ [start ++ [c]]) words := by
  have spells : (a.withNode ⟨c, false, none, none⟩).Spells starts words := fun k word found =>
    lays.getElem?_withNode _ found
  have chain := spells.siblings? (Nat.le_of_lt room) start 0
  rw [withNode] at chain
  rw [Arena.append?, chain]
  simp only [Option.bind_eq_bind, Option.bind_some, List.getLast?_map, Option.pure_def, lays.size]
  cases last : (places starts start 0).getLast? with
  | some place =>
    obtain ⟨later, linked, laid⟩ := lays.linkNext growth room new notWord last
    rw [withNode] at linked
    exact ⟨later, by simp [linked], laid⟩
  | none =>
    have unlinked : link starts start 0 = none := by
      rw [link, List.getLast?_eq_none_iff.mp last]
      rfl
    by_cases top : start = []
    · have root : number? starts start = none :=
        number?_of_notMem fun member => growth.nonempty (top ▸ member)
      refine ⟨_, by rw [root]; rfl, ?_⟩
      exact lays.linkRoot growth new notWord (top ▸ unlinked) top
    · obtain ⟨i, found⟩ := List.mem_iff_getElem?.mp (above top)
      obtain ⟨later, linked, laid⟩ := lays.linkChild growth room new notWord unlinked found
      rw [withNode] at linked
      exact ⟨later, by simp [number?_of_getElem? growth.nodup found, linked], laid⟩

end Append

/-- The words matter only as far as they have nodes. -/
theorem Lays.congr (lays : a.Lays starts words) {others : List (List Char)}
    (same : ∀ start ∈ starts, start ∈ words ↔ start ∈ others) : a.Lays starts others where
  node k := by
    rw [lays.node]
    refine Option.map_congr fun start found => ?_
    have ends : words.contains start = others.contains start := by
      rw [Bool.eq_iff_iff, List.contains_iff_mem, List.contains_iff_mem]
      exact same start (List.mem_of_getElem? found)
    rw [nodeAt, nodeAt, ends]
  root := lays.root
  wordCount := by
    rw [lays.wordCount]
    refine List.countP_congr fun start member => ?_
    rw [decide_eq_true_eq, decide_eq_true_eq, same start member]

theorem countP_mem_concat (nodup : starts.Nodup) (member : word ∈ starts) (new : word ∉ words) :
    starts.countP (· ∈ words ++ [word]) = starts.countP (· ∈ words) + 1 := by
  obtain ⟨before, after, rfl⟩ := List.append_of_mem member
  rw [List.nodup_middle, List.nodup_cons, List.mem_append] at nodup
  have others : ∀ start ∈ before ++ after,
      decide (start ∈ words ++ [word]) = true ↔ decide (start ∈ words) = true := by
    intro start listed
    have apart : start ≠ word := fun same => nodup.1 (List.mem_append.mp (same ▸ listed))
    simp [apart]
  rw [List.countP_append, List.countP_append, List.countP_cons, List.countP_cons,
    List.countP_congr fun start listed => others start (List.mem_append_left _ listed),
    List.countP_congr fun start listed => others start (List.mem_append_right _ listed)]
  simp [new]
  omega

theorem Lays.endWord? (lays : a.Lays starts words) (growth : Trie.IsGrowth starts)
    (few : starts.length ≤ 2 ^ 32) (known : word ≠ [] → word ∈ starts) :
    ∃ later, a.endWord? (number? starts word) = some later ∧
      later.Lays starts (words ++ [word]) := by
  by_cases empty : word = []
  · have unnumbered : number? starts word = none :=
      number?_of_notMem fun member => growth.nonempty (empty ▸ member)
    refine ⟨a, by rw [unnumbered]; rfl, lays.congr fun start member => ?_⟩
    have nonempty : start ≠ [] := fun same => growth.nonempty (same ▸ member)
    simp [empty, nonempty]
  · have member := known empty
    obtain ⟨j, found⟩ := List.mem_iff_getElem?.mp member
    have number := toNat_toUInt32 few found
    rw [number?_of_getElem? growth.nodup found, Arena.endWord?, lays.spells.node? few found]
    by_cases marked : word ∈ words
    · refine ⟨a, by simp [nodeAt, marked], lays.congr fun start _ => ?_⟩
      rw [List.mem_append, List.mem_singleton]
      exact ⟨Or.inl, fun either => either.elim id fun same => same ▸ marked⟩
    · have inside : j.toUInt32.toNat < a.nodes.size := by
        rw [number, lays.size]
        exact (List.getElem?_eq_some_iff.mp found).1
      let later : Arena := { a with
        nodes := a.nodes.modify j.toUInt32.toNat fun n => { n with isEnd := true }
        wordCount := a.wordCount + 1 }
      refine ⟨later, by simp [nodeAt, marked, update?_eq inside, later], fun k => ?_, lays.root, ?_⟩
      · simp only [later, number]
        rw [Array.getElem?_modify, lays.node]
        cases here : starts[k]? with
        | none => simp
        | some start =>
          by_cases same : j = k
          · subst same
            obtain rfl : word = start := by simpa [found] using here
            simp [nodeAt]
          · have apart : start ≠ word := by
              rintro rfl
              exact same (position_unique growth.nodup found here)
            simp [nodeAt, same, apart]
      · rw [countP_mem_concat growth.nodup member marked, ← lays.wordCount]

theorem Lays.insertFrom? (lays : a.Lays starts words) (growth : Trie.IsGrowth starts)
    (few : (grown starts start word).length ≤ 2 ^ 32) (above : start ≠ [] → start ∈ starts)
    (known : ∀ other ∈ words, other ≠ [] → other ∈ starts) :
    ∃ later, a.insertFrom? (link starts start 0) (number? starts start) word = some later ∧
      later.Lays (grown starts start word) (words ++ [start ++ word]) := by
  induction word generalizing a starts start with
  | nil =>
    rw [grown] at few ⊢
    rw [List.append_nil]
    exact lays.endWord? growth few above
  | cons c word ih =>
    rw [grown] at few ⊢
    have short := Nat.le_trans (Trie.length_le_length_grown _ _ _) few
    rw [Arena.insertFrom?, show start ++ c :: word = (start ++ [c]) ++ word by simp]
    by_cases member : start ++ [c] ∈ starts
    · rw [if_pos (List.contains_iff_mem.mpr member)] at few short ⊢
      obtain ⟨j, found⟩ := List.mem_iff_getElem?.mp member
      obtain ⟨later, inserted, laid⟩ := ih lays growth few (fun _ => member) known
      rw [lays.spells.find? growth short]
      rw [number?_of_getElem? growth.nodup found] at inserted ⊢
      simp only [Option.bind_eq_bind, Option.bind_some, lays.spells.node? short found]
      exact ⟨later, inserted, laid⟩
    · rw [if_neg fun holds => member (List.contains_iff_mem.mp holds)] at few short ⊢
      rw [List.length_append, List.length_singleton] at short
      have notWord : start ++ [c] ∉ words := fun word => member (known _ word (by simp))
      have grows := growth.concat above member
      obtain ⟨longer, appended, layout⟩ := lays.append? growth short member notWord above
      have found : (starts ++ [start ++ [c]])[starts.length]? = some (start ++ [c]) :=
        List.getElem?_concat_length
      obtain ⟨later, inserted, laid⟩ := ih layout grows few (fun _ => by simp)
        fun other member nonempty => List.mem_append_left _ (known other member nonempty)
      rw [lays.spells.find? growth (by omega), number?_of_notMem member]
      rw [number?_of_getElem? grows.nodup found] at inserted
      have few : (starts ++ [start ++ [c]]).length ≤ 2 ^ 32 := by simpa using short
      simp only [Option.bind_eq_bind, Option.bind_some, appended, layout.spells.node? few found]
      exact ⟨later, inserted, laid⟩

end WordFinder.Arena
