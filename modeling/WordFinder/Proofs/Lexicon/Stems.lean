import Mathlib
import WordFinder.Lexicon.Groups
import WordFinder.Proofs.Letter

/-!
# Groups built on stems

Whether a word has the letters of a stem is told in three ways: by leaving out one letter of the word
after another, by reading the letters of both in order and counting strays, and by drawing letters from
a hand. All three look for the letters of the one, in order, as a sublist of those of the other, and a
sublist of letters in order is one multiset of letters contained in another. A stem is filed by the
length of its encoding, which is its number of letters whenever a word has them all.
-/
set_option autoImplicit false

namespace WordFinder

/-! ## Letters in order -/

section InOrder

variable {letters others : List Char}

theorem sublist_iff_le_of_pairwise (ordered : letters.Pairwise (· ≤ ·))
    (othersOrdered : others.Pairwise (· ≤ ·)) :
    letters.Sublist others ↔ (letters : Multiset Char) ≤ others := by
  rw [Multiset.coe_le]
  constructor
  · exact List.Sublist.subperm
  · intro contained
    exact List.sublist_of_subperm_of_pairwise contained ordered othersOrdered

theorem coe_sortedLetters (letters : List Char) :
    (sortedLetters letters : Multiset Char) = letters :=
  Multiset.coe_eq_coe.mpr (perm_sortedLetters letters)

theorem length_sortedLetters (letters : List Char) :
    (sortedLetters letters).length = letters.length :=
  (perm_sortedLetters letters).length_eq

theorem sublist_sortedLetters_iff :
    (sortedLetters letters).Sublist (sortedLetters others) ↔ (letters : Multiset Char) ≤ others := by
  rw [sublist_iff_le_of_pairwise (pairwise_sortedLetters letters) (pairwise_sortedLetters others),
    coe_sortedLetters, coe_sortedLetters]

end InOrder

/-! ## Three ways to find a sublist -/

theorem exists_eraseIdx_eq_iff {α : Type} {short long : List α} :
    (∃ i < long.length, long.eraseIdx i = short) ↔
      short.Sublist long ∧ long.length = short.length + 1 := by
  constructor
  · intro holds
    obtain ⟨i, within, rfl⟩ := holds
    refine ⟨long.eraseIdx_sublist i, ?_⟩
    rw [List.length_eraseIdx_of_lt within]
    omega
  · intro holds
    obtain ⟨within, longer⟩ := holds
    induction within with
    | slnil => simp at longer
    | @cons short long a within ih =>
      have same := within.eq_of_length (by rw [List.length_cons] at longer; omega)
      exact ⟨0, Nat.succ_pos _, same.symm⟩
    | @cons_cons short long a within ih =>
      obtain ⟨i, less, erased⟩ := ih (by simpa using longer)
      exact ⟨i + 1, Nat.succ_lt_succ less, by rw [List.eraseIdx_cons_succ, erased]⟩

theorem sublist_of_strayLetters_le {letters stem : List Char} {strays : Nat}
    (enough : stem.length + 2 ≤ letters.length + strays)
    (few : strayLetters letters stem strays ≤ 2) : stem.Sublist letters := by
  induction letters generalizing stem strays with
  | nil =>
    cases stem with
    | nil => exact List.Sublist.refl []
    | cons s stem =>
      simp only [strayLetters, List.length_cons, List.length_nil] at few enough
      omega
  | cons c letters ih =>
    cases stem with
    | nil => exact List.nil_sublist _
    | cons s stem =>
      simp only [List.length_cons] at enough
      rw [strayLetters] at few
      split at few
      · omega
      · split at few
        · next same =>
          rw [same]
          exact (ih (by omega) few).cons_cons s
        · exact (ih (by rw [List.length_cons]; omega) few).cons c

theorem strayLetters_le_of_sublist {letters stem : List Char} {strays : Nat}
    (short : letters.length + strays ≤ stem.length + 2) (within : stem.Sublist letters) :
    strayLetters letters stem strays ≤ 2 := by
  induction letters generalizing stem strays with
  | nil =>
    rw [List.sublist_nil.mp within] at short ⊢
    simpa [strayLetters] using short
  | cons c letters ih =>
    cases stem with
    | nil =>
      simp only [List.length_cons, List.length_nil] at short
      rw [strayLetters]
      omega
    | cons s stem =>
      have fits := within.length_le
      simp only [List.length_cons] at short fits
      rw [strayLetters, if_neg (by omega)]
      split
      · next same =>
        rw [same] at within
        exact ih (by omega) (List.cons_sublist_cons.mp within)
      · next differ =>
        exact ih (by rw [List.length_cons]; omega) (within.of_cons_of_ne (Ne.symm differ))

theorem remainingAfter_eq_nil_iff {wanted hand : List Char} :
    remainingAfter wanted hand = [] ↔ wanted.Sublist hand := by
  induction hand generalizing wanted with
  | nil => exact List.sublist_nil.symm
  | cons c hand ih =>
    rw [remainingAfter, List.foldl_cons, ← remainingAfter, ih]
    cases wanted with
    | nil => simp
    | cons w wanted =>
      by_cases same : w = c
      · rw [same, List.head?_cons, if_pos rfl, List.tail_cons, List.cons_sublist_cons]
      · rw [List.head?_cons, if_neg (by simpa using same)]
        constructor
        · exact fun later => later.cons c
        · exact fun within => within.of_cons_of_ne same

/-! ## The length of a stem -/

theorem length_le_stemLength (stem : String) : stem.length ≤ Lexicon.stemLength stem := by
  rw [Lexicon.stemLength, ← String.utf8Len_toList, ← String.length_toList]
  induction stem.toList with
  | nil => exact Nat.le_refl _
  | cons c letters ih =>
    have positive := c.utf8Size_pos
    rw [List.length_cons, String.utf8Len_cons]
    omega

theorem stemLength_of_capitals {stem : String} (capitals : AreCapitals stem.toList) :
    Lexicon.stemLength stem = stem.length := by
  rw [Lexicon.stemLength, ← String.utf8Len_toList, ← String.length_toList]
  generalize stem.toList = letters at capitals
  induction letters with
  | nil => rfl
  | cons c letters ih =>
    obtain ⟨capital, others⟩ := areCapitals_cons.mp capitals
    have single : c.utf8Size = 1 := by
      rw [Char.utf8Size_eq_one_iff, UInt32.le_iff_toNat_le]
      exact (Text.toNat_of_isUpper capital).2.trans (by decide)
    rw [List.length_cons, String.utf8Len_cons, ih others, single]

namespace Lexicon

variable {x : Lexicon} {word : String}

/-- Whether all letters of a stem that is filed under a length occur in a word, each at least as
often. -/
def HasStem (x : Lexicon) (word : String) (length : Nat) : Prop :=
  ∃ stem ∈ x.stemsOfLength length, (stem.toList : Multiset Char) ≤ word.toList

theorem stemLength_of_mem {stem : String} {length : Nat} (member : stem ∈ x.stemsOfLength length) :
    stemLength stem = length := by
  simpa using (List.mem_filter.mp member).2

theorem length_of_stem {stem : String} {length : Nat} (member : stem ∈ x.stemsOfLength length)
    (capitals : AreCapitals word.toList) (within : (stem.toList : Multiset Char) ≤ word.toList) :
    stem.length = length := by
  rw [← stemLength_of_mem member]
  refine (stemLength_of_capitals fun c occurs => capitals c ?_).symm
  exact (Multiset.coe_le.mp within).subset occurs

theorem extendsStem_iff {length : Nat} (capitals : AreCapitals word.toList)
    (longer : word.length = length + 1) :
    x.extendsStem word length = true ↔ x.HasStem word length := by
  simp only [extendsStem, List.any_eq_true, List.mem_range, List.contains_iff_mem, stemLetters,
    List.mem_map, HasStem]
  constructor
  · intro holds
    obtain ⟨i, within, stem, member, erased⟩ := holds
    have found := (exists_eraseIdx_eq_iff.mp ⟨i, within, erased.symm⟩).1
    exact ⟨stem, member, sublist_sortedLetters_iff.mp found⟩
  · intro holds
    obtain ⟨stem, member, within⟩ := holds
    have short := length_of_stem member capitals within
    have sized : (sortedLetters word.toList).length = (sortedLetters stem.toList).length + 1 := by
      rw [length_sortedLetters, length_sortedLetters, String.length_toList, String.length_toList,
        longer, short]
    obtain ⟨i, less, erased⟩ :=
      exists_eraseIdx_eq_iff.mpr ⟨sublist_sortedLetters_iff.mpr within, sized⟩
    exact ⟨i, less, stem, member, erased.symm⟩

theorem nearlyHasShortStem_iff (capitals : AreCapitals word.toList) (long : word.length = 8) :
    x.nearlyHasShortStem word = true ↔ x.HasStem word shortStemLength := by
  have sized : (sortedLetters word.toList).length = 8 := by
    rw [length_sortedLetters, String.length_toList, long]
  simp only [nearlyHasShortStem, List.any_eq_true, stemLetters, List.mem_map, decide_eq_true_eq,
    HasStem]
  constructor
  · intro holds
    obtain ⟨_, ⟨stem, member, rfl⟩, few⟩ := holds
    have short := length_le_stemLength stem
    rw [stemLength_of_mem member, ← String.length_toList, ← length_sortedLetters, shortStemLength]
      at short
    exact ⟨stem, member, sublist_sortedLetters_iff.mp (sublist_of_strayLetters_le (by omega) few)⟩
  · intro holds
    obtain ⟨stem, member, within⟩ := holds
    have short := length_of_stem member capitals within
    rw [← String.length_toList, ← length_sortedLetters, shortStemLength] at short
    exact ⟨_, ⟨stem, member, rfl⟩,
      strayLetters_le_of_sublist (by omega) (sublist_sortedLetters_iff.mpr within)⟩

end Lexicon

theorem isDrawnFromTypeTwoLetters_iff {word : String} :
    isDrawnFromTypeTwoLetters word = true ↔
      (word.toList : Multiset Char) ≤ ("AAADEEEEGIIILNNOORRSSTTU".toList : Multiset Char) := by
  have ordered : typeTwoLetters.Pairwise (· ≤ ·) := by decide
  rw [isDrawnFromTypeTwoLetters, List.isEmpty_iff, remainingAfter_eq_nil_iff,
    sublist_iff_le_of_pairwise (pairwise_sortedLetters _) ordered, coe_sortedLetters]
  rfl

namespace Lexicon

variable (x : Lexicon) {word : String}

/-! ## Members of the groups -/

theorem decided_by_test (letters : ∀ c ∈ word.toList, c.isAlpha = true) (test : String → Bool)
    (never : test "" = false) :
    (if (Text.upper word).isEmpty || (Text.upper word).toList.any (fun c => 127 < c.toNat) then false
      else test (Text.upper word)) = test (Text.upper word) := by
  have ascii : ((Text.upper word).toList.any fun c => 127 < c.toNat) = false := by
    rw [List.any_eq_false]
    intro c member
    have most := (Text.toNat_of_isUpper (Text.areCapitals_upper letters c member)).2
    rw [decide_eq_true_eq]
    omega
  rw [ascii, Bool.or_false]
  split
  · next empty => rw [String.isEmpty_iff.mp empty, never]
  · rfl

theorem isTypeOneSeven_iff (capitals : AreCapitals word.toList) :
    x.isTypeOneSeven word = true ↔ word.length = 7 ∧ x.HasStem word 6 := by
  rw [isTypeOneSeven, Bool.and_eq_true, beq_iff_eq]
  exact and_congr_right fun long => extendsStem_iff capitals long

theorem isTypeOneEight_iff (capitals : AreCapitals word.toList) :
    x.isTypeOneEight word = true ↔ word.length = 8 ∧ x.HasStem word 6 := by
  rw [isTypeOneEight, Bool.and_eq_true, beq_iff_eq]
  exact and_congr_right fun long => nearlyHasShortStem_iff capitals long

theorem isTypeTwoSeven_iff :
    x.isTypeTwoSeven word = true ↔ word.length = 7 ∧
      (word.toList : Multiset Char) ≤ ("AAADEEEEGIIILNNOORRSSTTU".toList : Multiset Char) ∧
      ¬x.isTypeOneSeven word = true := by
  rw [isTypeTwoSeven, Bool.and_eq_true, Bool.and_eq_true, beq_iff_eq, isDrawnFromTypeTwoLetters_iff,
    Bool.not_eq_true', Bool.not_eq_true, and_assoc]

theorem isTypeTwoEight_iff :
    x.isTypeTwoEight word = true ↔ word.length = 8 ∧
      (word.toList : Multiset Char) ≤ ("AAADEEEEGIIILNNOORRSSTTU".toList : Multiset Char) ∧
      ¬x.isTypeOneEight word = true := by
  rw [isTypeTwoEight, Bool.and_eq_true, Bool.and_eq_true, beq_iff_eq, isDrawnFromTypeTwoLetters_iff,
    Bool.not_eq_true', Bool.not_eq_true, and_assoc]

/-- Of the words of letters in either case, those of seven or eight letters are of type I if they have
the letters of a stem of six, those of eight letters are built on a longer stem if they have the letters
of a stem of seven, and those of seven or eight letters are of type II if all their letters come from one
hand and they are not of type I. A letter counts as often as it occurs. Stems are filed by the length of
their encoding, yet a stem whose letters a word has is filed by its number of letters. -/
theorem isMember_stemGroups (letters : ∀ c ∈ word.toList, c.isAlpha = true) :
    let spelled : Multiset Char := (Text.upper word).toList
    let hand : Multiset Char := "AAADEEEEGIIILNNOORRSSTTU".toList
    (x.isMember word .typeOneSevens = true ↔ word.length = 7 ∧ x.HasStem (Text.upper word) 6) ∧
      (x.isMember word .typeOneEights = true ↔ word.length = 8 ∧ x.HasStem (Text.upper word) 6) ∧
      (x.isMember word .eightsFromSevenLetterStems = true ↔
        word.length = 8 ∧ x.HasStem (Text.upper word) 7) ∧
      (x.isMember word .typeTwoSevens = true ↔
        word.length = 7 ∧ spelled ≤ hand ∧ ¬x.isMember word .typeOneSevens = true) ∧
      (x.isMember word .typeTwoEights = true ↔
        word.length = 8 ∧ spelled ≤ hand ∧ ¬x.isMember word .typeOneEights = true) ∧
      ∀ length, ∀ stem ∈ x.stemsOfLength length, (stem.toList : Multiset Char) ≤ spelled →
        stem.length = length := by
  intro spelled hand
  have capitals := Text.areCapitals_upper letters
  have sameLength : (Text.upper word).length = word.length := by
    rw [← String.length_toList, Text.toList_upper, List.length_map, String.length_toList]
  have oneSeven : x.isMember word .typeOneSevens = x.isTypeOneSeven (Text.upper word) :=
    decided_by_test letters x.isTypeOneSeven rfl
  have oneEight : x.isMember word .typeOneEights = x.isTypeOneEight (Text.upper word) :=
    decided_by_test letters x.isTypeOneEight rfl
  have fromSeven : x.isMember word .eightsFromSevenLetterStems =
      ((Text.upper word).length == 8 && x.extendsStem (Text.upper word) longStemLength) :=
    decided_by_test letters (fun word => word.length == 8 && x.extendsStem word longStemLength) rfl
  have twoSeven : x.isMember word .typeTwoSevens = x.isTypeTwoSeven (Text.upper word) :=
    decided_by_test letters x.isTypeTwoSeven rfl
  have twoEight : x.isMember word .typeTwoEights = x.isTypeTwoEight (Text.upper word) :=
    decided_by_test letters x.isTypeTwoEight rfl
  rw [← sameLength]
  refine ⟨?_, ?_, ?_, ?_, ?_, fun length stem member => length_of_stem member capitals⟩
  · rw [oneSeven, x.isTypeOneSeven_iff capitals]
  · rw [oneEight, x.isTypeOneEight_iff capitals]
  · rw [fromSeven, Bool.and_eq_true, beq_iff_eq]
    exact and_congr_right fun long => extendsStem_iff capitals long
  · rw [twoSeven, oneSeven, x.isTypeTwoSeven_iff]
  · rw [twoEight, oneEight, x.isTypeTwoEight_iff]

/-- A seven in mixed case that would be of type II but for its stem. -/
theorem isMember_stemGroups_entrail :
    let x := (addStems { name := defaultName, bag := ⟨[]⟩ } "retina\nsatire\nnoir").1
    (∀ c ∈ "Entrail".toList, c.isAlpha = true) ∧ x.stemsOfLength 6 = ["RETINA", "SATIRE"] ∧
      x.isMember "Entrail" .typeOneSevens = true ∧ x.isMember "Entrail" .typeTwoSevens = false := by
  intro x
  have letters : ∀ c ∈ "Entrail".toList, c.isAlpha = true := List.all_eq_true.mp (by decide)
  have stems : x.stemsOfLength 6 = ["RETINA", "SATIRE"] := by decide +kernel
  obtain ⟨oneSeven, _, _, twoSeven, _, _⟩ := x.isMember_stemGroups letters
  have typeOne : x.isMember "Entrail" .typeOneSevens = true := by
    refine oneSeven.mpr ⟨rfl, "RETINA", by rw [stems]; exact List.mem_cons_self, ?_⟩
    decide +kernel
  refine ⟨letters, stems, typeOne, ?_⟩
  rw [← Bool.not_eq_true, twoSeven]
  exact fun holds => holds.2.2 typeOne

end Lexicon

end WordFinder
