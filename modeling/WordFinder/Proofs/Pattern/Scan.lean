import Mathlib
import WordFinder.Proofs.Pattern.Splits

/-!
# Scans decide which words a pattern splits

A scan asks whether the tokens left split the letters left or the latest star can take more letters.
Every step keeps the answer. The step that forgets an earlier star does because whatever the earlier
star could take more, the new one can take instead: the tokens between the two take one letter each.
-/
set_option autoImplicit false

namespace WordFinder.Pattern

theorem Splits.star_of_suffix {tokens : List Token} {word later : List Char}
    (splits : Splits (.star :: tokens) later) (suffix : later <:+ word) :
    Splits (.star :: tokens) word := by
  obtain ⟨rest, inside, others⟩ := splits_star_iff.mp splits
  exact splits_star_iff.mpr ⟨rest, inside.trans suffix, others⟩

theorem splits_append_of_no_star {tokens others : List Token} {word : List Char}
    (noStar : .star ∉ tokens) (splits : Splits (tokens ++ others) word) :
    ∃ taken rest, word = taken ++ rest ∧ taken.length = tokens.length ∧ Splits others rest := by
  induction tokens generalizing word with
  | nil => exact ⟨[], word, rfl, rfl, splits⟩
  | cons token tokens ih =>
    rw [List.mem_cons, not_or] at noStar
    obtain ⟨c, last, rfl, _, later⟩ := (splits_letter_iff (Ne.symm noStar.1)).mp splits
    obtain ⟨taken, rest, rfl, length, splitsRest⟩ := ih noStar.2 later
    exact ⟨c :: taken, rest, rfl, by rw [List.length_cons, length, List.length_cons], splitsRest⟩

namespace Scan

variable {s next : Scan}

/-- The tokens left split the letters left, or the tokens after the latest star split what is left
once the star takes one more letter or several. -/
def Accepts (s : Scan) : Prop :=
  Splits s.tokens s.word ∨ ∃ tried ∈ s.tried?, Splits (.star :: tried.1) tried.2.tail

theorem accepts_start_iff {tokens : List Token} {word : List Char} :
    (start tokens word).Accepts ↔ Splits tokens word := by
  simp [Accepts, start]

theorem accepts_afterStar_iff {tokens : List Token} {word : List Char} :
    (afterStar tokens word).Accepts ↔ Splits (.star :: tokens) word := by
  simp only [Accepts, afterStar, Option.mem_some_iff, exists_eq_left']
  cases word with
  | nil => simp [splits_star_iff]
  | cons c word => exact splits_star_cons_iff.symm

/-- If the latest star can take more letters, the tokens left split the end of the letters left: the
tokens passed take one letter each. -/
theorem exists_later_of_tried {tried : List Token × List Char} (found : tried ∈ s.tried?)
    (splits : Splits (.star :: tried.1) tried.2.tail) :
    ∃ later, later <:+ s.word ∧ Splits s.tokens later := by
  obtain ⟨tokensPassed, lettersPassed, rfl, sameLength, noStar⟩ := s.passed tried found
  obtain ⟨rest, suffix, others⟩ := splits_star_iff.mp splits
  obtain ⟨taken, later, rfl, length, splitsLater⟩ := splits_append_of_no_star noStar others
  have inside : taken ++ later <:+ lettersPassed ++ s.word := suffix.trans (List.tail_suffix _)
  have short : later.length ≤ s.word.length := by
    have := inside.length_le
    simp only [List.length_append] at this
    omega
  exact ⟨later, List.suffix_of_suffix_length_le ((List.suffix_append taken later).trans inside)
    (List.suffix_append lettersPassed s.word) short, splitsLater⟩

/-- The next letter cannot be passed. -/
def IsStuck (tokens : List Token) (c : Char) : Prop :=
  ∀ token rest, tokens = token :: rest → token ≠ .star ∧ token.accepts c ≠ true

theorem not_splits_of_isStuck {tokens : List Token} {c : Char} (stuck : IsStuck tokens c)
    (word : List Char) : ¬Splits tokens (c :: word) := by
  cases tokens with
  | nil => simp [splits_nil_iff]
  | cons token tokens =>
    obtain ⟨single, refuses⟩ := stuck token tokens rfl
    rw [splits_letter_iff single]
    simp [refuses]

theorem step?_eq_none (ended : s.step? = none) :
    s.word = [] ∨ ∃ c word, s.word = c :: word ∧ IsStuck s.tokens c ∧ s.tried? = none := by
  obtain ⟨tokens, word, tried?, passed⟩ := s
  cases word with
  | nil => exact Or.inl rfl
  | cons c word =>
    refine Or.inr ⟨c, word, rfl, ?_⟩
    cases tokens with
    | nil => exact ⟨by simp [IsStuck], Option.map_eq_none_iff.mp ended⟩
    | cons token tokens =>
      rw [step?] at ended
      split at ended
      · contradiction
      · next single =>
        split at ended
        · contradiction
        · next refused =>
          refine ⟨fun _ _ same => ?_, Option.map_eq_none_iff.mp ended⟩
          cases same
          exact ⟨single, refused⟩

theorem accepts_step (step : s.step? = some next) : s.Accepts ↔ next.Accepts := by
  obtain ⟨c, word, letters, ⟨tokens, front, rfl⟩ | ⟨token, tokens, front, single, accepted, shape⟩ |
    ⟨refused, tried, found, rfl⟩⟩ := step?_eq_some step
  · rw [accepts_afterStar_iff]
    constructor
    · intro either
      rcases either with splits | ⟨tried, found, splits⟩
      · rwa [front] at splits
      · obtain ⟨later, suffix, splitsLater⟩ := exists_later_of_tried found splits
        exact (front ▸ splitsLater).star_of_suffix suffix
    · intro splits
      exact Or.inl (front ▸ splits)
  · obtain ⟨tokensLeft, wordLeft, same⟩ := shape
    have passes : Splits (token :: tokens) (c :: word) ↔ Splits tokens word := by
      rw [splits_letter_iff single]
      simp [accepted]
    rw [Accepts, Accepts, front, letters, tokensLeft, wordLeft, same, passes]
  · have stuck : ¬Splits s.tokens s.word := letters ▸ not_splits_of_isStuck refused word
    have only : ∀ other ∈ s.tried?, other = tried := fun other also => Option.mem_unique also found
    rw [accepts_afterStar_iff, Accepts, or_iff_right stuck]
    constructor
    · intro holds
      obtain ⟨other, also, splits⟩ := holds
      rwa [only other also] at splits
    · exact fun splits => ⟨tried, found, splits⟩

theorem isMatched_iff_of_ended (ended : s.step? = none) : s.isMatched = true ↔ s.Accepts := by
  rcases step?_eq_none ended with none | ⟨c, word, letters, stuck, noStar⟩
  · have more : (∃ tried ∈ s.tried?, Splits (.star :: tried.1) tried.2.tail) → Splits s.tokens [] := by
      intro holds
      obtain ⟨tried, found, splits⟩ := holds
      obtain ⟨later, suffix, splitsLater⟩ := exists_later_of_tried found splits
      rw [none, List.suffix_nil] at suffix
      exact suffix ▸ splitsLater
    rw [isMatched, none, Accepts, none, List.isEmpty_nil, Bool.true_and, ← splits_onlyStars_iff]
    exact ⟨Or.inl, fun either => either.elim id more⟩
  · rw [isMatched, letters, Accepts, letters, noStar]
    simp [not_splits_of_isStuck stuck word]

theorem run_of_step (step : s.step? = some next) : s.run = next.run := by
  rw [run]
  split
  · next other same =>
    rw [step] at same
    rw [Option.some.inj same]
  · next ended =>
    rw [step] at ended
    contradiction

theorem run_of_ended (ended : s.step? = none) : s.run = s.isMatched := by
  rw [run]
  split
  · next other same =>
    rw [ended] at same
    contradiction
  · rfl

/-- The scan after a number of steps, if it goes on for so many. -/
def after? (s : Scan) : Nat → Option Scan
  | 0 => some s
  | steps + 1 => s.step?.bind (·.after? steps)

theorem exists_last (s : Scan) : ∃ steps ≤ s.weight, ∃ last, s.after? steps = some last ∧
    last.step? = none ∧ s.run = last.isMatched ∧ (s.Accepts ↔ last.Accepts) := by
  induction s using run.induct with
  | case1 s next step ih =>
    obtain ⟨steps, few, last, reached, ended, result, same⟩ := ih
    refine ⟨steps + 1, ?_, last, ?_, ended, ?_, ?_⟩
    · have := weight_step step
      omega
    · rw [after?, step, Option.bind_some, reached]
    · rw [run_of_step step, result]
    · rw [accepts_step step, same]
  | case2 s ended => exact ⟨0, Nat.zero_le _, s, rfl, ended, run_of_ended ended, Iff.rfl⟩

theorem run_iff (s : Scan) : s.run = true ↔ s.Accepts := by
  obtain ⟨_, _, last, _, ended, result, same⟩ := s.exists_last
  rw [result, isMatched_iff_of_ended ended, ← same]

end Scan

theorem isMatch_iff (p : Pattern) (word : String) :
    p.isMatch word = true ↔ Splits p.tokens word.toList := by
  rw [isMatch, Scan.run_iff, Scan.accepts_start_iff]

/-- Whatever the number of stars, the scan of a word ends, and it has matched exactly if the tokens
split the word. -/
theorem scan_decides (p : Pattern) (word : String) :
    ∃ steps < (word.length + 1) * (p.tokens.length + 1), ∃ last : Scan,
      (Scan.start p.tokens word.toList).after? steps = some last ∧ last.step? = none ∧
        p.isMatch word = last.isMatched ∧
          (p.isMatch word = true ↔ Splits p.tokens word.toList) := by
  obtain ⟨steps, few, last, reached, ended, result, _⟩ :=
    (Scan.start p.tokens word.toList).exists_last
  refine ⟨steps, ?_, last, reached, ended, result, p.isMatch_iff word⟩
  have weight : (Scan.start p.tokens word.toList).weight =
      word.length * (p.tokens.length + 1) + p.tokens.length := by
    rw [← String.length_toList]
    rfl
  rw [Nat.succ_mul]
  omega

end WordFinder.Pattern
