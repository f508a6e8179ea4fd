import Mathlib
import WordFinder.Pattern
import WordFinder.Proofs.Text.Upper

/-!
# Words that a pattern splits

The relation between tokens and the words that split into consecutive parts, one for each token: any
run of characters for a star and one accepted letter for every other token. The relation may be read
from either end.
-/
set_option autoImplicit false

namespace WordFinder.Pattern

inductive Splits : List Token → List Char → Prop where
  | nil : Splits [] []
  | star {tokens : List Token} {rest : List Char} (run : List Char) (others : Splits tokens rest) :
    Splits (.star :: tokens) (run ++ rest)
  | letter {token : Token} {tokens : List Token} {c : Char} {rest : List Char}
    (single : token ≠ .star) (accepted : token.accepts c = true) (others : Splits tokens rest) :
    Splits (token :: tokens) (c :: rest)

theorem splits_nil_iff {word : List Char} : Splits [] word ↔ word = [] := by
  constructor
  · rintro ⟨⟩
    rfl
  · rintro rfl
    exact .nil

theorem splits_star_iff {tokens : List Token} {word : List Char} :
    Splits (.star :: tokens) word ↔ ∃ rest, rest <:+ word ∧ Splits tokens rest := by
  constructor
  · intro splits
    cases splits with
    | star run others => exact ⟨_, List.suffix_append run _, others⟩
    | letter single _ _ => exact absurd rfl single
  · intro holds
    obtain ⟨rest, ⟨run, rfl⟩, others⟩ := holds
    exact .star run others

theorem splits_letter_iff {token : Token} (single : token ≠ .star) {tokens : List Token}
    {word : List Char} :
    Splits (token :: tokens) word ↔
      ∃ c rest, word = c :: rest ∧ token.accepts c = true ∧ Splits tokens rest := by
  constructor
  · intro splits
    cases splits with
    | star run others => exact absurd rfl single
    | letter _ accepted others => exact ⟨_, _, rfl, accepted, others⟩
  · intro holds
    obtain ⟨c, rest, rfl, accepted, others⟩ := holds
    exact .letter single accepted others

theorem splits_star_cons_iff {tokens : List Token} {c : Char} {word : List Char} :
    Splits (.star :: tokens) (c :: word) ↔
      Splits tokens (c :: word) ∨ Splits (.star :: tokens) word := by
  rw [splits_star_iff, splits_star_iff]
  constructor
  · intro holds
    obtain ⟨rest, suffix, others⟩ := holds
    rcases List.suffix_cons_iff.mp suffix with rfl | later
    · exact Or.inl others
    · exact Or.inr ⟨rest, later, others⟩
  · intro either
    rcases either with others | ⟨rest, later, others⟩
    · exact ⟨c :: word, List.suffix_rfl, others⟩
    · exact ⟨rest, later.trans (List.suffix_cons c word), others⟩

theorem splits_onlyStars_iff {tokens : List Token} :
    Splits tokens [] ↔ onlyStars tokens = true := by
  induction tokens with
  | nil => simp [splits_nil_iff, onlyStars]
  | cons token tokens ih =>
    by_cases star : token = .star
    · rw [star, splits_star_iff]
      simp only [List.suffix_nil, exists_eq_left, ih, onlyStars, List.all_cons, beq_self_eq_true,
        Bool.true_and]
    · rw [splits_letter_iff star]
      simp [onlyStars, star]

/-! ## Reading from the other end -/

theorem Splits.append {first second : List Token} {word rest : List Char}
    (front : Splits first word) (back : Splits second rest) :
    Splits (first ++ second) (word ++ rest) := by
  induction front with
  | nil => exact back
  | star run others ih =>
    rw [List.cons_append, List.append_assoc]
    exact .star run ih
  | letter single accepted others ih => exact .letter single accepted ih

theorem Splits.reverse {tokens : List Token} {word : List Char} (splits : Splits tokens word) :
    Splits tokens.reverse word.reverse := by
  induction splits with
  | nil => exact .nil
  | star run others ih =>
    rw [List.reverse_cons, List.reverse_append]
    refine ih.append ?_
    have last := Splits.star run.reverse .nil
    rwa [List.append_nil] at last
  | letter single accepted others ih =>
    rw [List.reverse_cons, List.reverse_cons]
    exact ih.append (.letter single accepted .nil)

theorem splits_reverse_iff {tokens : List Token} {word : List Char} :
    Splits tokens.reverse word.reverse ↔ Splits tokens word := by
  constructor
  · intro splits
    simpa using splits.reverse
  · exact Splits.reverse

end WordFinder.Pattern
