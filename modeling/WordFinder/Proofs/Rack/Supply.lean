import Mathlib
import WordFinder.Rack

/-!
# Supplies of a rack

What the letters of a word need from a rack, letter by letter. Where there is a star, no word needs
any one slot: the letter that took it can take the star.
-/
set_option autoImplicit false

namespace WordFinder.Rack

variable {star mayLeave : Bool} {c : Char} {word : List Char} {classes : List LetterClass}
  {blanks : Nat}

theorem canSupply_nil_iff :
    canSupply star mayLeave [] classes blanks = true ↔
      mayLeave = true ∨ (classes = [] ∧ blanks = 0) := by
  simp [canSupply]

theorem canSupply_cons_iff :
    canSupply star mayLeave (c :: word) classes blanks = true ↔
      (∃ k ∈ classes, k.accepts c = true ∧
          canSupply star mayLeave word (classes.erase k) blanks = true) ∨
        (blanks ≠ 0 ∧ canSupply star mayLeave word classes (blanks - 1) = true) ∨
          (star = true ∧ canSupply star mayLeave word classes blanks = true) := by
  simp only [canSupply, Bool.or_eq_true, Bool.and_eq_true, List.any_eq_true, List.mem_eraseDups,
    List.mem_filter, bne_iff_ne, or_assoc, and_assoc]

theorem canSupply_erase (k : LetterClass)
    (supplied : canSupply true mayLeave word classes blanks = true) :
    canSupply true mayLeave word (classes.erase k) blanks = true := by
  induction word generalizing classes blanks with
  | nil =>
    rw [canSupply_nil_iff] at supplied ⊢
    rcases supplied with left | ⟨rfl, none⟩
    · exact Or.inl left
    · exact Or.inr ⟨rfl, none⟩
  | cons c word ih =>
    rw [canSupply_cons_iff] at supplied ⊢
    rcases supplied with ⟨j, member, accepts, others⟩ | ⟨some, others⟩ | ⟨_, others⟩
    · by_cases same : j = k
      · rw [same] at others
        exact Or.inr (Or.inr ⟨rfl, others⟩)
      · refine Or.inl ⟨j, (List.mem_erase_of_ne same).mpr member, accepts, ?_⟩
        rw [List.erase_comm]
        exact ih others
    · exact Or.inr (Or.inl ⟨some, ih others⟩)
    · exact Or.inr (Or.inr ⟨rfl, ih others⟩)

theorem canSupply_withoutBlank
    (supplied : canSupply true mayLeave word classes blanks = true) :
    canSupply true mayLeave word classes (blanks - 1) = true := by
  induction word generalizing classes blanks with
  | nil =>
    rw [canSupply_nil_iff] at supplied ⊢
    rcases supplied with left | ⟨none, rfl⟩
    · exact Or.inl left
    · exact Or.inr ⟨none, rfl⟩
  | cons c word ih =>
    rw [canSupply_cons_iff] at supplied ⊢
    rcases supplied with ⟨j, member, accepts, others⟩ | ⟨_, others⟩ | ⟨_, others⟩
    · exact Or.inl ⟨j, member, accepts, ih others⟩
    · exact Or.inr (Or.inr ⟨rfl, others⟩)
    · exact Or.inr (Or.inr ⟨rfl, ih others⟩)

/-! ## What is left of the letter slots -/

theorem takeLetters_cons_of_mem {slots : List Char} (member : slots.contains c = true) :
    takeLetters slots (c :: word) = takeLetters (slots.erase c) word := by
  rw [takeLetters, if_pos member]

theorem takeLetters_cons_of_notMem {slots : List Char} (missing : slots.contains c ≠ true) :
    takeLetters slots (c :: word) =
      (c :: (takeLetters slots word).1, (takeLetters slots word).2) := by
  rw [takeLetters, if_neg missing]

theorem takeLetters_sublist (slots word : List Char) :
    (takeLetters slots word).1.Sublist word := by
  induction word generalizing slots with
  | nil => simp [takeLetters]
  | cons c word ih =>
    by_cases member : slots.contains c = true
    · rw [takeLetters_cons_of_mem member]
      exact (ih _).cons c
    · rw [takeLetters_cons_of_notMem member]
      exact (ih _).cons_cons c

theorem length_takeLetters (slots word : List Char) :
    (takeLetters slots word).1.length + slots.length =
      (takeLetters slots word).2.length + word.length := by
  induction word generalizing slots with
  | nil => simp [takeLetters]
  | cons c word ih =>
    by_cases member : slots.contains c = true
    · have erased := List.length_erase_of_mem (List.contains_iff_mem.mp member)
      have some := List.length_pos_of_mem (List.contains_iff_mem.mp member)
      have others := ih (slots.erase c)
      rw [takeLetters_cons_of_mem member, List.length_cons]
      omega
    · have others := ih slots
      rw [takeLetters_cons_of_notMem member]
      simp only [List.length_cons]
      omega

/-- Without a star every letter takes a slot of its own. -/
theorem length_le_of_canSupply (supplied : canSupply false mayLeave word classes blanks = true) :
    word.length ≤ classes.length + blanks := by
  induction word generalizing classes blanks with
  | nil => exact Nat.zero_le _
  | cons c word ih =>
    rcases canSupply_cons_iff.mp supplied with
      ⟨k, member, _, others⟩ | ⟨some, others⟩ | ⟨never, _⟩
    · have erased := List.length_erase_of_mem member
      have someClass := List.length_pos_of_mem member
      have := ih others
      rw [List.length_cons]
      omega
    · have := ih others
      rw [List.length_cons]
      omega
    · exact absurd never (by decide)

/-- Where no slot may be left, every slot takes a letter of its own. -/
theorem le_length_of_canSupply (supplied : canSupply star false word classes blanks = true) :
    classes.length + blanks ≤ word.length := by
  induction word generalizing classes blanks with
  | nil =>
    rcases canSupply_nil_iff.mp supplied with never | ⟨rfl, rfl⟩
    · exact absurd never (by decide)
    · exact Nat.le_refl _
  | cons c word ih =>
    rcases canSupply_cons_iff.mp supplied with
      ⟨k, member, _, others⟩ | ⟨some, others⟩ | ⟨_, others⟩
    · have erased := List.length_erase_of_mem member
      have := ih others
      rw [List.length_cons]
      omega
    · have := ih others
      rw [List.length_cons]
      omega
    · have := ih others
      rw [List.length_cons]
      omega

end WordFinder.Rack
