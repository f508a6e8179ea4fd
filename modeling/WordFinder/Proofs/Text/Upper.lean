import Mathlib
import WordFinder.Letter
import WordFinder.Text.Case

/-!
# Upper case

Words are spelled with capital letters, which folding leaves alone, and a lower-case mark on such a
letter is undone by folding.
-/
set_option autoImplicit false

namespace WordFinder

/-- A spelling with the letters `A` to `Z` only. -/
def AreCapitals (word : List Char) : Prop :=
  ∀ c ∈ word, c.isUpper = true

theorem areCapitals_cons {c : Char} {word : List Char} :
    AreCapitals (c :: word) ↔ c.isUpper = true ∧ AreCapitals word := by
  simp [AreCapitals]

theorem AreCapitals.perm {word other : List Char} (capitals : AreCapitals word)
    (same : other.Perm word) : AreCapitals other := fun c member =>
  capitals c (same.mem_iff.mp member)

theorem areCapitals_reverse {word : List Char} :
    AreCapitals word.reverse ↔ AreCapitals word := by
  simp [AreCapitals]

namespace Text

theorem toUpper_of_isUpper {c : Char} (capital : c.isUpper = true) : c.toUpper = c :=
  Char.toUpper_eq_of_not_isLower (Char.not_isLower_of_isUpper capital)

theorem toUpper_toLower_of_isUpper {c : Char} (capital : c.isUpper = true) :
    c.toLower.toUpper = c := by
  rw [Char.toUpper_toLower_eq_toUpper, toUpper_of_isUpper capital]

theorem isAlpha_of_isUpper {c : Char} (capital : c.isUpper = true) : c.isAlpha = true := by
  rw [Char.isAlpha, capital, Bool.true_or]

theorem toNat_of_isUpper {c : Char} (capital : c.isUpper = true) :
    65 ≤ c.toNat ∧ c.toNat ≤ 90 := by
  simp only [Char.isUpper, decide_eq_true_eq, ge_iff_le, UInt32.le_iff_toNat_le] at capital
  exact capital

theorem mem_alphabet_iff {c : Char} : c ∈ alphabet ↔ c.isUpper = true := by
  have numbered : alphabet = (List.range 26).map fun i => Char.ofNat (65 + i) := rfl
  constructor
  · intro member
    have every : alphabet.all Char.isUpper = true := by decide
    exact List.all_eq_true.mp every c member
  · intro capital
    obtain ⟨low, high⟩ := toNat_of_isUpper capital
    rw [numbered, List.mem_map]
    refine ⟨c.toNat - 65, List.mem_range.mpr (by omega), ?_⟩
    rw [Nat.add_sub_cancel' low, Char.ofNat_toNat]

theorem toList_upper (s : String) : (upper s).toList = s.toList.map Char.toUpper := by
  rw [upper, String.toList_ofList]

theorem upper_upper (s : String) : upper (upper s) = upper s := by
  rw [← String.toList_inj, toList_upper, toList_upper, List.map_map]
  exact List.map_congr_left fun c _ => Char.toUpper_toUpper_eq_toUpper c

theorem map_toUpper_of_capitals {word : List Char} (capitals : AreCapitals word) :
    word.map Char.toUpper = word := by
  rw [List.map_congr_left fun c member => toUpper_of_isUpper (capitals c member), List.map_id']

theorem upper_of_capitals {s : String} (capitals : AreCapitals s.toList) : upper s = s := by
  rw [upper, map_toUpper_of_capitals capitals, String.ofList_toList]

theorem areCapitals_upper {s : String} (letters : ∀ c ∈ s.toList, c.isAlpha = true) :
    AreCapitals (upper s).toList := by
  intro c member
  rw [toList_upper, List.mem_map] at member
  obtain ⟨d, occurs, rfl⟩ := member
  rw [Char.isUpper_toUpper_eq_isAlpha, letters d occurs]

end Text

end WordFinder
