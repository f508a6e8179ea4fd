import Mathlib
import WordFinder.SearchString

/-!
# Search strings as blocks

A search string is reversed block by block: a class goes along as it is written, every other
character by itself. The blocks are found by searching ahead for the bracket that closes a class.
Where every class is closed, the reversal has the same blocks in the opposite order, and its own
reversal is the string.
-/
set_option autoImplicit false

namespace WordFinder.SearchString

/-- The blocks of a search string: an opening bracket goes with everything up to the next closing
bracket, if there is one, and every other character stands by itself. -/
def blocks : List Char → List (List Char)
  | [] => []
  | c :: cs =>
    if c = '[' ∧ ']' ∈ cs then
      (c :: cs.take (cs.idxOf ']' + 1)) :: blocks (cs.drop (cs.idxOf ']' + 1))
    else [c] :: blocks cs
termination_by s => s.length
decreasing_by all_goals (simp only [List.length_cons, List.length_drop]; omega)

/-- A block of a string in which every class is closed. -/
inductive IsBlock : List Char → Prop where
  | plain {c : Char} (notOpening : c ≠ '[') : IsBlock [c]
  | letterClass {members : List Char} (unclosed : ']' ∉ members) :
    IsBlock ('[' :: members ++ [']'])

def HasClosedClasses (s : List Char) : Prop :=
  ∀ block ∈ blocks s, IsBlock block

variable {s members : List Char} {parts : List (List Char)}

/-! ## The first block -/

theorem blocks_plain {c : Char} (notOpening : c ≠ '[') (s : List Char) :
    blocks (c :: s) = [c] :: blocks s := by
  rw [blocks, if_neg fun both => notOpening both.1]

theorem blocks_unclosed (unclosed : ']' ∉ s) : blocks ('[' :: s) = ['['] :: blocks s := by
  rw [blocks, if_neg fun both => unclosed both.2]

theorem blocks_letterClass (unclosed : ']' ∉ members) (s : List Char) :
    blocks ('[' :: members ++ ']' :: s) = ('[' :: members ++ [']']) :: blocks s := by
  have position : (members ++ ']' :: s).idxOf ']' = members.length := by
    rw [List.idxOf_append_of_notMem unclosed, List.idxOf_cons_self, Nat.add_zero]
  have split : members ++ ']' :: s = (members ++ [']']) ++ s := by rw [List.append_assoc]; rfl
  have length : (members ++ [']']).length = members.length + 1 := List.length_append
  rw [List.cons_append, blocks, if_pos ⟨rfl, by simp⟩, position, split, List.take_left' length,
    List.drop_left' length, List.cons_append]

/-- A search string is empty, or it starts with a character other than an opening bracket, with a
bracket that is never closed, or with a class. -/
theorem blocks_induction {motive : List Char → Prop} (nil : motive [])
    (plain : ∀ c s, c ≠ '[' → motive s → motive (c :: s))
    (unclosed : ∀ s, ']' ∉ s → motive s → motive ('[' :: s))
    (letterClass : ∀ members s, ']' ∉ members → motive s →
      motive ('[' :: members ++ ']' :: s)) (s : List Char) : motive s := by
  induction length : s.length using Nat.strong_induction_on generalizing s with
  | _ n ih =>
    subst length
    cases s with
    | nil => exact nil
    | cons c cs =>
      have rest := ih cs.length (by simp) cs rfl
      by_cases opens : c = '['
      · subst opens
        by_cases closes : ']' ∈ cs
        · obtain ⟨members, later, rfl, unread⟩ := List.eq_append_cons_of_mem closes
          refine letterClass members later unread (ih later.length ?_ later rfl)
          simp only [List.length_cons, List.length_append]
          omega
        · exact unclosed cs closes rest
      · exact plain c cs opens rest

/-! ## All blocks -/

theorem flatten_blocks (s : List Char) : (blocks s).flatten = s := by
  induction s using blocks_induction with
  | nil => rw [blocks, List.flatten_nil]
  | plain c s notOpening ih =>
    rw [blocks_plain notOpening, List.flatten_cons, ih, List.singleton_append]
  | unclosed s unclosed ih =>
    rw [blocks_unclosed unclosed, List.flatten_cons, ih, List.singleton_append]
  | letterClass members s unclosed ih =>
    rw [blocks_letterClass unclosed, List.flatten_cons, ih, List.append_assoc,
      List.singleton_append]

theorem blocks_flatten (areBlocks : ∀ part ∈ parts, IsBlock part) :
    blocks parts.flatten = parts := by
  induction parts with
  | nil => rw [List.flatten_nil, blocks]
  | cons part parts ih =>
    obtain ⟨isBlock, areOthers⟩ := List.forall_mem_cons.mp areBlocks
    rw [List.flatten_cons]
    cases isBlock with
    | plain notOpening => rw [List.singleton_append, blocks_plain notOpening, ih areOthers]
    | letterClass unclosed =>
      rw [List.append_assoc, List.singleton_append, blocks_letterClass unclosed, ih areOthers]

theorem areBlocks_reverse (areBlocks : ∀ part ∈ parts, IsBlock part) :
    ∀ part ∈ parts.reverse, IsBlock part := fun part member =>
  areBlocks part (List.mem_reverse.mp member)

/-! ## The reversal -/

theorem reversedFrom_unclosed (unclosed : ']' ∉ s) (class? : Option (List Char))
    (done : List Char) : reversedFrom class? done s = s.reverse ++ class?.getD [] ++ done := by
  induction s generalizing class? done with
  | nil => cases class? <;> rfl
  | cons c s ih =>
    obtain ⟨notClosing, others⟩ := List.ne_and_not_mem_of_not_mem_cons unclosed
    cases class? with
    | none =>
      rw [reversedFrom]
      split_ifs with opens
      · rw [ih others, opens]
        simp
      · rw [ih others]
        simp
    | some unit =>
      rw [reversedFrom, if_neg (Ne.symm notClosing), ih others]
      simp

theorem reversedFrom_letterClass (unclosed : ']' ∉ members) (unit done s : List Char) :
    reversedFrom (some unit) done (members ++ ']' :: s) =
      reversedFrom none (unit.reverse ++ members ++ ']' :: done) s := by
  induction members generalizing unit with
  | nil => rw [List.nil_append, reversedFrom, if_pos rfl, List.append_nil]
  | cons c members ih =>
    obtain ⟨notClosing, others⟩ := List.ne_and_not_mem_of_not_mem_cons unclosed
    rw [List.cons_append, reversedFrom, if_neg (Ne.symm notClosing), ih others]
    simp

theorem reversedFrom_eq (done s : List Char) :
    reversedFrom none done s = (blocks s).reverse.flatten ++ done := by
  induction s using blocks_induction generalizing done with
  | nil => rw [blocks]; rfl
  | plain c s notOpening ih =>
    rw [reversedFrom, if_neg notOpening, ih, blocks_plain notOpening]
    simp
  | unclosed s unclosed ih =>
    -- no class is read to its end, so the bracket is put behind the rest like other characters
    have wholly : ']' ∉ '[' :: s := by simpa using unclosed
    have same : reversedFrom none done ('[' :: s) = reversedFrom none ('[' :: done) s := by
      rw [reversedFrom_unclosed wholly, reversedFrom_unclosed unclosed]
      simp
    rw [same, ih, blocks_unclosed unclosed]
    simp
  | letterClass members s unclosed ih =>
    rw [List.cons_append, reversedFrom, if_pos rfl, reversedFrom_letterClass unclosed, ih,
      ← List.cons_append, blocks_letterClass unclosed]
    simp

/-- A search string is reversed by putting its blocks in the opposite order. -/
theorem reversed_eq_flatten (s : String) :
    reversed s = .ofList (blocks s.toList).reverse.flatten := by
  rw [reversed, reversedFrom_eq, List.append_nil]

theorem toList_reversed_flatten {s : String} (made : s.toList = parts.flatten)
    (areBlocks : ∀ part ∈ parts, IsBlock part) :
    (reversed s).toList = parts.reverse.flatten := by
  rw [reversed_eq_flatten, String.toList_ofList, made, blocks_flatten areBlocks]

theorem reversed_reversed {s : String} (closed : HasClosedClasses s.toList) :
    reversed (reversed s) = s := by
  have once := toList_reversed_flatten (flatten_blocks s.toList).symm closed
  rw [← String.toList_inj, toList_reversed_flatten once (areBlocks_reverse closed),
    List.reverse_reverse, flatten_blocks]

/-- A bracket that is not closed begins a class where a closing bracket comes to stand after it. -/
example : reversed (reversed "]A[") = "[A]" := by decide

end WordFinder.SearchString
