import Mathlib
import WordFinder.Proofs.Text.Upper

/-!
# Letters behind other characters

The full upper-case spelling of a text can consist of the letters `A` to `Z` although the text has
other characters: ten characters are spelled with such letters only. No other character is, so a text
without these ten is spelled with letters only if it has letters only, and then both folds agree.
-/
set_option autoImplicit false

namespace WordFinder.Text

/-- The characters that are no letters `A` to `Z` in either case but become such letters in upper
case. -/
def disguisedLetters : List Char :=
  ['ß', 'ı', 'ſ', 'ﬀ', 'ﬁ', 'ﬂ', 'ﬃ', 'ﬄ', 'ﬅ', 'ﬆ']

variable {c : Char}

theorem toNat_of_isAlpha (letter : c.isAlpha = true) : 65 ≤ c.toNat ∧ c.toNat ≤ 122 := by
  simp only [Char.isAlpha, Char.isUpper, Char.isLower, Bool.or_eq_true, Bool.and_eq_true,
    decide_eq_true_eq, ge_iff_le, UInt32.le_iff_toNat_le] at letter
  rcases letter with ⟨low, high⟩ | ⟨low, high⟩
  · exact ⟨low, high.trans (by decide)⟩
  · exact ⟨Nat.le_trans (by decide) low, high⟩

theorem not_isAlpha_ofNat {n : Nat} (beyond : 122 < n) : (Char.ofNat n).isAlpha = false := by
  rw [Bool.eq_false_iff]
  intro letter
  obtain ⟨low, high⟩ := toNat_of_isAlpha letter
  rw [Char.toNat_ofNat] at low high
  split_ifs at low high <;> omega

/-! ## Characters that are mapped to one character -/

/-- Beyond ASCII a run of the upper-case table either stays beyond the letters or holds one of the
ten characters alone. -/
def CaseRun.reachesNoOtherLetter (run : CaseRun) : Bool :=
  run.last < 128 || 122 < (run.first : Int) + run.shift ||
    (run.first == run.last && disguisedLetters.contains (.ofNat run.first))

theorem reachesNoOtherLetter_upperCaseRuns :
    upperCaseRuns.all CaseRun.reachesNoOtherLetter = true := by
  decide +kernel

theorem mem_disguisedLetters_of_image {run : CaseRun} (known : run ∈ upperCaseRuns) {n : Nat}
    (beyond : 128 ≤ c.toNat) (image : run.image? c.toNat = some n)
    (letter : (Char.ofNat n).isAlpha = true) : c ∈ disguisedLetters := by
  have reaches := List.all_eq_true.mp reachesNoOtherLetter_upperCaseRuns run known
  rw [CaseRun.image?] at image
  split at image
  · next inside =>
    obtain ⟨first, last, _⟩ := inside
    simp only [CaseRun.reachesNoOtherLetter, Bool.or_eq_true, Bool.and_eq_true, decide_eq_true_eq,
      beq_iff_eq, List.contains_iff_mem] at reaches
    rcases reaches with (ascii | high) | ⟨single, member⟩
    · omega
    · have above : 122 < n := by
        rw [← Option.some.inj image]
        omega
      rw [not_isAlpha_ofNat above] at letter
      contradiction
    · rwa [show run.first = c.toNat by omega, Char.ofNat_toNat] at member
  · contradiction

theorem mem_disguisedLetters_of_mapByRuns (beyond : 128 ≤ c.toNat)
    (letter : (mapByRuns upperCaseRuns c).isAlpha = true) : c ∈ disguisedLetters := by
  rw [mapByRuns] at letter
  split at letter
  · next n found =>
    obtain ⟨run, known, image⟩ := List.exists_of_findSome?_eq_some found
    exact mem_disguisedLetters_of_image known beyond image letter
  · have ascii := (toNat_of_isAlpha letter).2
    omega

/-! ## Characters that are spelled with several -/

theorem mem_disguisedLetters_of_lookup {spelling : List Nat}
    (found : longUpperCase.lookup c.toNat = some spelling)
    (letters : ∀ n ∈ spelling, (Char.ofNat n).isAlpha = true) : c ∈ disguisedLetters := by
  have every : longUpperCase.all (fun entry =>
      !entry.2.all (fun n => (Char.ofNat n).isAlpha) ||
        disguisedLetters.contains (.ofNat entry.1)) = true := by
    decide +kernel
  obtain ⟨before, after, split, _⟩ := List.lookup_eq_some_iff.mp found
  have here := List.all_eq_true.mp every (c.toNat, spelling) (by simp [split])
  rwa [List.all_eq_true.mpr letters, Bool.not_true, Bool.false_or, Char.ofNat_toNat,
    List.contains_iff_mem] at here

/-- A character is spelled with letters in upper case only if it is a letter or one of the ten. -/
theorem isAlpha_or_mem_of_fullUpperChar (letters : ∀ d ∈ fullUpperChar c, d.isAlpha = true) :
    c.isAlpha = true ∨ c ∈ disguisedLetters := by
  rw [fullUpperChar] at letters
  split at letters
  · left
    rw [← Char.isAlpha_toUpper_eq_isAlpha]
    exact letters _ (List.mem_singleton_self _)
  · next beyond =>
    right
    split at letters
    · next spelling found =>
      refine mem_disguisedLetters_of_lookup found fun n member => ?_
      exact letters _ (List.mem_map_of_mem member)
    · exact mem_disguisedLetters_of_mapByRuns (Nat.not_lt.mp beyond)
        (letters _ (List.mem_singleton_self _))

theorem fullUpper_of_letters {s : String} (letters : ∀ c ∈ s.toList, c.isAlpha = true) :
    fullUpper s = upper s := by
  rw [fullUpper, upper, List.map_eq_flatMap]
  refine congrArg String.ofList (List.flatMap_congr fun c member => ?_)
  have ascii := (toNat_of_isAlpha (letters c member)).2
  rw [fullUpperChar, if_pos (by omega)]

end WordFinder.Text
