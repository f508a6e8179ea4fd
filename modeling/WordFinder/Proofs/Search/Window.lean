import Mathlib
import WordFinder.Search.Optimize
import WordFinder.Search.Verdict
import WordFinder.Proofs.Lexicon.Anagrams

/-!
# What windows say about words

The counts of a word of a vocabulary are bounded, and a window that leaves out no possible count says
nothing about it. The conditions that windows are turned into ask for exactly what the windows say.
-/
set_option autoImplicit false

namespace WordFinder

theorem toInt_max (a b : Int32) : (max a b).toInt = max a.toInt b.toInt := by
  rw [show max a b = if a ≤ b then b else a from rfl]
  simp only [Int32.le_iff_toInt_le]
  split <;> omega

theorem toInt_min (a b : Int32) : (min a b).toInt = min a.toInt b.toInt := by
  rw [show min a b = if a ≤ b then a else b from rfl]
  simp only [Int32.le_iff_toInt_le]
  split <;> omega

/-! ## One window -/

namespace Window

variable {w : Window} {n : Nat}

def Has (w : Window) (n : Nat) : Prop :=
  w.min.toInt ≤ n ∧ n ≤ w.max.toInt

theorem has_tighten {least most : Int32} :
    (w.tighten least most).Has n ↔ w.Has n ∧ Has ⟨least, most⟩ n := by
  simp only [Has, tighten, toInt_max, toInt_min]
  omega

theorem isNonempty_of_has (has : w.Has n) : w.isNonempty = true := by
  rw [isNonempty, decide_eq_true_eq, Int32.le_iff_toInt_le]
  exact le_trans has.1 has.2

theorem has_of_not_isNarrowerThan {bound : Int32} (wide : ¬w.isNarrowerThan bound = true)
    (within : (n : Int) ≤ bound.toInt) : w.Has n := by
  have zero : (0 : Int32).toInt = 0 := rfl
  simp only [isNarrowerThan, Bool.or_eq_true, decide_eq_true_eq, gt_iff_lt,
    Int32.lt_iff_toInt_lt, zero, not_or, not_lt] at wide
  unfold Has
  omega

theorem all_condition? (w : Window) (kind : ConditionKind) (bound : Int32)
    (meets : Condition → Bool) {n : Nat} (within : (n : Int) ≤ bound.toInt)
    (decides : meets (.ofRange kind w.min w.max) = true ↔ w.Has n) :
    (w.condition? kind bound).all meets = true ↔ w.Has n := by
  unfold condition?
  by_cases narrow : w.isNarrowerThan bound = true
  · rw [if_pos narrow, List.all_cons, List.all_nil, Bool.and_true, decides]
  · rw [if_neg narrow]
    simp only [List.all_nil, has_of_not_isNarrowerThan narrow within]

end Window

theorem Condition.admits_iff {c : Condition} {n : Nat} :
    c.admits n = true ↔ Window.Has ⟨c.min, c.max⟩ n := by
  rw [admits, Bool.and_eq_true, decide_eq_true_eq, decide_eq_true_eq, Window.Has]

/-! ## Words of a vocabulary -/

structure HasBoundedCounts (x : Lexicon) (word : String) : Prop where
  nonempty : 0 < word.length
  short : word.length ≤ maxWordLength
  fewVowels : vowelCount word ≤ word.length
  someLetter : 0 < uniqueLetterCount word
  fewLetters : uniqueLetterCount word ≤ word.length
  leastPoints : word.length ≤ pointValue word
  mostPoints : pointValue word ≤ 10 * word.length
  someAnagram : 0 < x.anagramCount word
  fewAnagrams : x.anagramCount word ≤ 65535

theorem Lexicon.Reached.hasBoundedCounts {x : Lexicon} {word : String} (reached : x.Reached)
    (fewAnagrams : x.HasFewAnagrams) (member : word ∈ x.vocabulary) : HasBoundedCounts x word := by
  obtain ⟨capitals, nonempty, short⟩ := reached.storable member
  obtain ⟨leastPoints, mostPoints⟩ := pointValue_bounds capitals
  refine ⟨nonempty, short, vowelCount_le_length word, uniqueLetterCount_pos nonempty,
    uniqueLetterCount_le_length word, leastPoints, mostPoints, reached.anagramCount_pos member, ?_⟩
  rw [reached.anagramCount_eq member]
  exact fewAnagrams word member

/-! ## All windows of a search -/

namespace Windows

variable {x : Lexicon} {word : String} {w : Windows}

structure Hold (w : Windows) (x : Lexicon) (word : String) : Prop where
  lengths : w.lengths.Has word.length
  vowels : w.vowels.Has (vowelCount word)
  uniqueLetters : w.uniqueLetters.Has (uniqueLetterCount word)
  points : w.points.Has (pointValue word)
  anagrams : w.anagrams.Has (x.anagramCount word)

theorem toInt_lengthBound : lengthBound.toInt = 15 := rfl

theorem toInt_beyondLengths : beyondLengths.toInt = 16 := by decide

theorem toInt_beyondPoints : beyondPoints.toInt = 151 := by decide

theorem toInt_anagramBound : anagramBound.toInt = 65535 := rfl

theorem toInt_zero : (0 : Int32).toInt = 0 := rfl

theorem hold_default (bounded : HasBoundedCounts x word) : Hold {} x word := by
  obtain ⟨nonempty, short, fewVowels, someLetter, fewLetters, leastPoints, mostPoints, someAnagram,
    fewAnagrams⟩ := bounded
  have short : word.length ≤ 15 := short
  constructor <;>
    simp only [Window.Has, Window.upTo, toInt_zero, toInt_beyondLengths, toInt_beyondPoints,
      toInt_anagramBound] <;> omega

/-- No window is found to be empty or out of range. -/
structure ArePossible (w : Windows) : Prop where
  lengths : w.lengthsPossible = true
  vowels : w.vowelsPossible = true
  uniqueLetters : w.uniqueLettersPossible = true
  points : w.pointsPossible = true
  anagrams : w.anagramsPossible = true

theorem Hold.arePossible (hold : w.Hold x word) (bounded : HasBoundedCounts x word) :
    w.ArePossible := by
  obtain ⟨nonempty, short, fewVowels, someLetter, fewLetters, leastPoints, mostPoints, someAnagram,
    fewAnagrams⟩ := bounded
  have short : word.length ≤ 15 := short
  obtain ⟨lengths, vowels, uniqueLetters, points, anagrams⟩ := hold
  constructor
  all_goals
    simp only [lengthsPossible, vowelsPossible, uniqueLettersPossible, pointsPossible,
      anagramsPossible, Window.isNonempty_of_has lengths, Window.isNonempty_of_has vowels,
      Window.isNonempty_of_has uniqueLetters, Window.isNonempty_of_has points,
      Window.isNonempty_of_has anagrams, Bool.and_true, Bool.and_eq_true, decide_eq_true_eq,
      ge_iff_le, gt_iff_lt, Int32.le_iff_toInt_le, Int32.lt_iff_toInt_lt, toInt_zero,
      toInt_lengthBound, toInt_beyondPoints, toInt_anagramBound]
    simp only [Window.Has] at lengths vowels uniqueLetters points anagrams
    omega

theorem areConsistent_of_hold (bounded : HasBoundedCounts x word) (hold : w.Hold x word)
    (narrow : w.lengths.max.toInt ≤ 16) : w.areConsistent = true := by
  obtain ⟨nonempty, short, fewVowels, someLetter, fewLetters, leastPoints, mostPoints, _, _⟩ :=
    bounded
  obtain ⟨lengths, vowels, uniqueLetters, points, _⟩ := hold
  simp only [Window.Has] at lengths vowels uniqueLetters points
  -- the product stays far below the range of the numbers
  have product : (10 * w.lengths.max).toInt = 10 * w.lengths.max.toInt := by
    rw [Int32.toInt_mul, show (10 : Int32).toInt = 10 from rfl]
    apply Int.bmod_eq_of_le <;> omega
  simp only [areConsistent, Bool.not_eq_true', Bool.or_eq_false_iff, decide_eq_false_iff_not,
    gt_iff_lt, Int32.lt_iff_toInt_lt, product, not_lt]
  omega

theorem meetsAll_conditions_iff (bounded : HasBoundedCounts x word) :
    x.meetsAll word w.conditions = true ↔ w.Hold x word := by
  obtain ⟨nonempty, short, fewVowels, someLetter, fewLetters, leastPoints, mostPoints, someAnagram,
    fewAnagrams⟩ := bounded
  have short : word.length ≤ 15 := short
  have lengths := w.lengths.all_condition? .length beyondLengths (x.meets word) (n := word.length)
    (by rw [toInt_beyondLengths]; omega) Condition.admits_iff
  have vowels := w.vowels.all_condition? .vowelCount beyondLengths (x.meets word) (n := vowelCount word)
    (by rw [toInt_beyondLengths]; omega) Condition.admits_iff
  have uniqueLetters := w.uniqueLetters.all_condition? .uniqueLetterCount beyondLengths (x.meets word) (n := uniqueLetterCount word)
    (by rw [toInt_beyondLengths]; omega) Condition.admits_iff
  have points := w.points.all_condition? .pointValue beyondPoints (x.meets word) (n := pointValue word)
    (by rw [toInt_beyondPoints]; omega) Condition.admits_iff
  have anagrams := w.anagrams.all_condition? .anagramCount anagramBound (x.meets word) (n := x.anagramCount word)
    (by rw [toInt_anagramBound]; omega) Condition.admits_iff
  rw [Lexicon.meetsAll, conditions, List.all_append, List.all_append, List.all_append,
    List.all_append, Bool.and_eq_true, Bool.and_eq_true, Bool.and_eq_true, Bool.and_eq_true,
    lengths, vowels, uniqueLetters, points, anagrams]
  constructor
  · intro holds
    obtain ⟨⟨⟨⟨hasLength, hasVowels⟩, hasLetters⟩, hasPoints⟩, hasAnagrams⟩ := holds
    exact ⟨hasLength, hasVowels, hasLetters, hasPoints, hasAnagrams⟩
  · intro holds
    obtain ⟨hasLength, hasVowels, hasLetters, hasPoints, hasAnagrams⟩ := holds
    exact ⟨⟨⟨⟨hasLength, hasVowels⟩, hasLetters⟩, hasPoints⟩, hasAnagrams⟩

end Windows

end WordFinder
