import WordFinder.MatchSet
import WordFinder.Rack
import WordFinder.Trie
import WordFinder.Walk
import WordFinder.Walk.Limits

/-!
# Walking a trie with a rack

A state of the walk is a place in the trie together with the slots of the rack that are left. A
letter takes a letter slot if there is one; otherwise it takes any class that accepts it or a blank,
and only if there is neither, the star. Letters that a letter slot did not supply are marked by
lower case.
-/
set_option autoImplicit false

namespace WordFinder

structure RackState where
  chain : Trie
  /-- The letters chosen so far with their marks, last letter first. -/
  spelled : List Char
  letters : List Char
  blanks : Nat
  classes : List LetterClass

inductive Supply where
  | letterSlot
  | classSlot (k : LetterClass)
  | blank
  | star
deriving DecidableEq, Repr

namespace RackState

def ofRack (rack : Rack) (t : Trie) : RackState :=
  ⟨t, [], rack.letters, rack.blanks, rack.classes⟩

def slotsLeft (s : RackState) : Nat :=
  s.letters.length + s.blanks + s.classes.length

/-- The class slots and blanks that can supply a letter. Of equal classes only the first is
listed. -/
def wildSupplies (s : RackState) (c : Char) : List Supply :=
  (s.classes.filter (·.accepts c)).eraseDups.map .classSlot
    ++ if s.blanks = 0 then [] else [.blank]

def supplies (star : Bool) (s : RackState) (c : Char) : List Supply :=
  if s.letters.contains c then [.letterSlot]
  else if (s.wildSupplies c).isEmpty && star then [.star]
  else s.wildSupplies c

def take (s : RackState) (n : TrieNode) : Supply → RackState
  | .letterSlot =>
    { s with chain := n.child, spelled := n.letter :: s.spelled, letters := s.letters.erase n.letter }
  | .classSlot k =>
    { s with
      chain := n.child, spelled := n.letter.toLower :: s.spelled, classes := s.classes.erase k }
  | .blank =>
    { s with chain := n.child, spelled := n.letter.toLower :: s.spelled, blanks := s.blanks - 1 }
  | .star => { s with chain := n.child, spelled := n.letter.toLower :: s.spelled }

/-- The nodes that may be chosen, each with the state that choosing and supplying it leads to. -/
def choices (star : Bool) (limits : WalkLimits) (s : RackState) : List (TrieNode × RackState) :=
  (s.chain.siblings.filter fun n =>
      n.letter.isUpper && limits.allows n.letter && limits.continues s.spelled.length).flatMap
    fun n => (s.supplies star n.letter).map fun supply => (n, s.take n supply)

def isComplete (subanagram : Bool) (limits : WalkLimits) (s : RackState) (n : TrieNode) : Bool :=
  n.isEnd && (subanagram || s.slotsLeft == 0) && limits.minLength ≤ s.spelled.length

def isOpen (star : Bool) (limits : WalkLimits) (s : RackState) : Bool :=
  !s.chain.isEmpty && limits.continues s.spelled.length && (s.slotsLeft != 0 || star)

def next (star : Bool) (limits : WalkLimits) (s : RackState) : List RackState :=
  ((s.choices star limits).map Prod.snd).filter (·.isOpen star limits)

def visit (star subanagram : Bool) (limits : WalkLimits) (found : MatchSet) (s : RackState) :
    MatchSet :=
  (s.choices star limits).foldl
    (fun found choice =>
      if choice.2.isComplete subanagram limits choice.1 then
        found.insert (.ofList choice.2.spelled.reverse)
      else found)
    found

/-- The weight of the states below a chain, if each letter is supplied in at most `k` ways. -/
def weightBelow (k : Nat) : Trie → Nat
  | .nil => 0
  | .node _ _ child next => k * (1 + weightBelow k child) + weightBelow k next

def weight (s : RackState) : Nat :=
  1 + weightBelow (s.classes.length + 1) s.chain

theorem weightBelow_mono {j k : Nat} (h : j ≤ k) (chain : Trie) :
    weightBelow j chain ≤ weightBelow k chain := by
  induction chain with
  | nil => simp [weightBelow]
  | node letter isEnd child next ihChild ihNext =>
    simp only [weightBelow]
    have := Nat.mul_le_mul h (Nat.add_le_add_left ihChild 1)
    omega

theorem weight_take_le (s : RackState) (n : TrieNode) (supply : Supply) :
    (s.take n supply).weight ≤ 1 + weightBelow (s.classes.length + 1) n.child := by
  cases supply with
  | classSlot k =>
    have : (s.classes.erase k).length ≤ s.classes.length := List.length_erase_le
    simp only [take, weight]
    exact Nat.add_le_add_left (weightBelow_mono (by omega) _) 1
  | _ => simp [take, weight]

theorem length_eraseDups_le {α : Type} [BEq α] [LawfulBEq α] (xs : List α) :
    xs.eraseDups.length ≤ xs.length := by
  match xs with
  | [] => simp
  | x :: xs =>
    rw [List.eraseDups_cons, List.length_cons, List.length_cons]
    exact Nat.add_le_add_right (Nat.le_trans (length_eraseDups_le _) (List.length_filter_le ..)) 1
termination_by xs.length
decreasing_by
  simp only [List.length_cons]
  exact Nat.lt_succ_of_le (List.length_filter_le ..)

theorem length_supplies_le (star : Bool) (s : RackState) (c : Char) :
    (s.supplies star c).length ≤ s.classes.length + 1 := by
  have hclasses : (s.classes.filter (·.accepts c)).eraseDups.length ≤ s.classes.length :=
    Nat.le_trans (length_eraseDups_le _) (List.length_filter_le ..)
  have hwild : (s.wildSupplies c).length ≤ s.classes.length + 1 := by
    simp only [wildSupplies, List.length_append, List.length_map]
    split <;> simp only [List.length_nil, List.length_cons] <;> omega
  unfold supplies
  split
  · simp
  · split
    · simp
    · exact hwild

theorem weight_choices_le (star : Bool) (s : RackState) (keep : TrieNode → Bool) (chain : Trie) :
    totalOf (fun choice => choice.2.weight)
      ((chain.siblings.filter keep).flatMap fun n =>
        (s.supplies star n.letter).map fun supply => (n, s.take n supply))
      ≤ weightBelow (s.classes.length + 1) chain := by
  induction chain with
  | nil => exact Nat.le_refl _
  | node letter isEnd child next _ ih =>
    simp only [Trie.siblings, weightBelow]
    by_cases hkeep : keep ⟨letter, isEnd, child⟩
    · rw [List.filter_cons_of_pos hkeep, List.flatMap_cons, totalOf_append, totalOf_map]
      refine Nat.add_le_add (Nat.le_trans (totalOf_le_length_mul _ _ _ ?_)
        (Nat.mul_le_mul_right _ (s.length_supplies_le star letter))) ih
      exact fun supply _ => s.weight_take_le ⟨letter, isEnd, child⟩ supply
    · rw [List.filter_cons_of_neg hkeep]
      exact Nat.le_trans ih (Nat.le_add_left _ _)

theorem weight_next (star : Bool) (limits : WalkLimits) (s : RackState) :
    totalOf weight (s.next star limits) < s.weight := by
  have hopen := totalOf_filter_le weight (·.isOpen star limits)
    ((s.choices star limits).map Prod.snd)
  rw [totalOf_map] at hopen
  have hchoices := weight_choices_le star s (fun n => n.letter.isUpper && limits.allows n.letter
    && limits.continues s.spelled.length) s.chain
  exact Nat.lt_of_le_of_lt (Nat.le_trans hopen hchoices) (Nat.lt_add_of_pos_left Nat.one_pos)

end RackState

namespace Rack

def walk (star subanagram : Bool) (limits : WalkLimits) : Walk RackState MatchSet where
  visit := RackState.visit star subanagram limits
  next := RackState.next star limits
  weight := RackState.weight
  weight_next := RackState.weight_next star limits

/-- A rack with more classes than this finds nothing. -/
def maxClasses : Nat := 32

def wordsIn (rack : Rack) (subanagram : Bool) (limits : WalkLimits) (t : Trie) : MatchSet :=
  if (rack.slotCount == 0 && !rack.star) || maxClasses < rack.classes.length then .empty
  else (walk rack.star subanagram limits).run .empty [.ofRack rack t]

end Rack

end WordFinder
