import Mathlib
import WordFinder.Letter
import WordFinder.Tile.Bag
import WordFinder.Walk.Rack
import WordFinder.Proofs.Text.Upper

/-!
# Counts of letters

The letters of a word in order depend on how often it has each letter and on nothing else. The length
of a word bounds its vowels, its different letters and its points.
-/
set_option autoImplicit false

namespace WordFinder

/-! ## Letters in order -/

theorem perm_sortedLetters (letters : List Char) : (sortedLetters letters).Perm letters :=
  List.mergeSort_perm letters _

theorem pairwise_sortedLetters (letters : List Char) :
    (sortedLetters letters).Pairwise (· ≤ ·) := by
  have sorted : (sortedLetters letters).Pairwise fun a b => decide (a ≤ b) = true := by
    apply List.pairwise_mergeSort
    · intro a b c first second
      rw [decide_eq_true_eq] at *
      exact le_trans first second
    · intro a b
      simp only [Bool.or_eq_true, decide_eq_true_eq]
      exact le_total a b
  simpa only [decide_eq_true_eq] using sorted

theorem sortedLetters_eq_iff {letters others : List Char} :
    sortedLetters letters = sortedLetters others ↔ letters.Perm others := by
  constructor
  · intro same
    have perm := perm_sortedLetters letters
    rw [same] at perm
    exact perm.symm.trans (perm_sortedLetters others)
  · intro perm
    have sorted : (sortedLetters letters).Perm (sortedLetters others) :=
      (perm_sortedLetters letters).trans (perm.trans (perm_sortedLetters others).symm)
    exact sorted.eq_of_pairwise (fun a b _ _ less more => le_antisymm less more)
      (pairwise_sortedLetters letters) (pairwise_sortedLetters others)

theorem toList_alphagram (word : String) : (alphagram word).toList = sortedLetters word.toList := by
  rw [alphagram, String.toList_ofList]

theorem alphagram_eq_iff {word other : String} :
    alphagram word = alphagram other ↔ word.toList.Perm other.toList := by
  rw [← String.toList_inj, toList_alphagram, toList_alphagram, sortedLetters_eq_iff]

/-- The alphagram stays the same if letters are put in order before or after case is folded. -/
theorem alphagram_upper_alphagram (word : String) :
    alphagram (Text.upper (alphagram word)) = alphagram (Text.upper word) := by
  rw [alphagram_eq_iff, Text.toList_upper, Text.toList_upper, toList_alphagram]
  exact (perm_sortedLetters word.toList).map Char.toUpper

/-! ## Counts -/

variable {word : String}

theorem vowelCount_le_length (word : String) : vowelCount word ≤ word.length := by
  rw [vowelCount, ← String.length_toList]
  exact List.countP_le_length

theorem uniqueLetterCount_le_length (word : String) : uniqueLetterCount word ≤ word.length := by
  rw [uniqueLetterCount, ← String.length_toList]
  exact RackState.length_eraseDups_le word.toList

theorem uniqueLetterCount_pos (nonempty : 0 < word.toList.length) :
    0 < uniqueLetterCount word := by
  obtain ⟨c, rest, shape⟩ := List.exists_cons_of_length_pos nonempty
  rw [uniqueLetterCount, shape, List.eraseDups_cons, List.length_cons]
  exact Nat.succ_pos _

theorem letterValue_bounds {c : Char} (capital : c.isUpper = true) :
    1 ≤ letterValue c ∧ letterValue c ≤ 10 := by
  have every : alphabet.all fun c => 1 ≤ letterValue c && letterValue c ≤ 10 := by decide
  have here := List.all_eq_true.mp every c (Text.mem_alphabet_iff.mpr capital)
  simpa using here

theorem totalOf_letterValue_bounds {letters : List Char} (capitals : AreCapitals letters) :
    letters.length ≤ totalOf letterValue letters ∧
      totalOf letterValue letters ≤ 10 * letters.length := by
  induction letters with
  | nil => exact ⟨Nat.le_refl _, Nat.le_refl _⟩
  | cons c letters ih =>
    obtain ⟨capital, others⟩ := areCapitals_cons.mp capitals
    obtain ⟨least, most⟩ := letterValue_bounds capital
    obtain ⟨leastOthers, mostOthers⟩ := ih others
    rw [totalOf, List.length_cons]
    omega

theorem pointValue_bounds (capitals : AreCapitals word.toList) :
    word.length ≤ pointValue word ∧ pointValue word ≤ 10 * word.length := by
  rw [pointValue, ← String.length_toList]
  exact totalOf_letterValue_bounds capitals

end WordFinder
