import Mathlib
import WordFinder.Proofs.Text.Upper
import WordFinder.Proofs.Tile.Binomial
import WordFinder.Proofs.Tile.Distribution
import WordFinder.Proofs.Tile.Hands

/-!
# Draws of a word

The draws of a word are summed over the letters that blanks replace: none, one of its letters, or two of
them, which may be the same letter twice. The letters that a word needs have a series whose coefficients
are these sums, and the same series counts hands. So the number of draws is the number of hands that
have letters of the word and a few blanks.
-/
set_option autoImplicit false

namespace WordFinder

open Polynomial

/-! ## Sums over replaced letters -/

namespace LetterNeed

def ways (needs : List LetterNeed) : Nat :=
  (needs.map fun need => need.available.choose need.needed).prod

/-- Counts the ways to take tiles of the letters needed, by how many are lacking in all. -/
noncomputable def series (needs : List LetterNeed) : ℕ[X] :=
  (needs.map fun need => lackSeries need.available need.needed).prod

variable (need : LetterNeed) (needs : List LetterNeed)

theorem ways_cons : ways (need :: needs) = need.available.choose need.needed * ways needs :=
  List.prod_cons

theorem series_cons :
    series (need :: needs) = lackSeries need.available need.needed * series needs :=
  List.prod_cons

theorem draws_rat : draws Rat needs = (ways needs : Rat) := by
  have general : ∀ product : Nat,
      needs.foldl (fun product need => product * binomial Rat need.available need.needed) (product : Rat) =
        ((product * ways needs : Nat) : Rat) := by
    induction needs with
    | nil => intro product; rw [ways, List.map_nil, List.prod_nil, Nat.mul_one]; rfl
    | cons need needs ih =>
      intro product
      rw [List.foldl_cons, binomial_rat, ← Nat.cast_mul, ih, ways_cons, Nat.mul_assoc]
  rw [draws, general, Nat.one_mul]

/-! One step along the letters, for one letter replaced and for two. -/

theorem spare_cons_zero :
    spare (need :: needs) 0 = { need with needed := need.needed - 1 } :: needs :=
  List.modify_zero_cons _ _ _

theorem spare_cons_succ (i : Nat) : spare (need :: needs) (i + 1) = need :: spare needs i :=
  List.modify_succ_cons _ _ _ _

theorem sparePairs_cons_zero (all : ∀ need ∈ needs, need.needed ≠ 0) :
    sparePairs (need :: needs) 0 =
      (if need.needed - 1 = 0 then [] else [{ need with needed := need.needed - 1 - 1 } :: needs]) ++
        (List.range needs.length).map fun j =>
          { need with needed := need.needed - 1 } :: spare needs j := by
  have later : (List.range needs.length).filter ((fun j => decide (0 ≤ j) &&
      ((spare (need :: needs) 0)[j]?.any fun need => need.needed != 0)) ∘ Nat.succ) =
      List.range needs.length := by
    rw [List.filter_eq_self]
    intro j member
    have within : j < needs.length := List.mem_range.mp member
    simp [spare_cons_zero, within, all needs[j] (List.getElem_mem within)]
  rw [sparePairs, List.length_cons, List.range_succ_eq_map, List.filter_cons, List.filter_map, later]
  by_cases single : need.needed - 1 = 0 <;>
    simp [spare_cons_zero, spare_cons_succ, single, Function.comp_def]

theorem sparePairs_cons_succ (i : Nat) :
    sparePairs (need :: needs) (i + 1) = (sparePairs needs i).map (need :: ·) := by
  have shifted : (fun j => decide (i + 1 ≤ j) &&
      ((spare (need :: needs) (i + 1))[j]?.any fun need => need.needed != 0)) ∘ Nat.succ =
      fun j => decide (i ≤ j) && ((spare needs i)[j]?.any fun need => need.needed != 0) := by
    funext j
    simp [spare_cons_succ]
  rw [sparePairs, List.length_cons, List.range_succ_eq_map, List.filter_cons_of_neg (by simp),
    List.filter_map, shifted, List.map_map, sparePairs, List.map_map]
  exact List.map_congr_left fun j _ => by
    rw [Function.comp_apply, Function.comp_apply, spare_cons_succ, spare_cons_succ]

theorem coeff_mul_two (p q : ℕ[X]) :
    (p * q).coeff 2 = p.coeff 0 * q.coeff 2 + p.coeff 1 * q.coeff 1 + p.coeff 2 * q.coeff 0 := by
  rw [coeff_mul, Finset.Nat.sum_antidiagonal_eq_sum_range_succ fun i j => p.coeff i * q.coeff j,
    Finset.sum_range_succ, Finset.sum_range_succ, Finset.sum_range_one]

/-! The first coefficients of the series, one for each number of letters replaced. -/

theorem coeff_series_zero : (series needs).coeff 0 = ways needs := by
  induction needs with
  | nil => exact coeff_one_zero
  | cons need needs ih =>
    rw [series_cons, mul_coeff_zero, ih, coeff_lackSeries_of_le _ (Nat.zero_le _), Nat.sub_zero,
      ways_cons]

variable {needs}

theorem coeff_series_one (all : ∀ need ∈ needs, need.needed ≠ 0) :
    (series needs).coeff 1 = (((List.range needs.length).map (spare needs)).map ways).sum := by
  induction needs with
  | nil => simp [series, coeff_one]
  | cons need needs ih =>
    rw [List.forall_mem_cons] at all
    have replaced : 1 ≤ need.needed := Nat.one_le_iff_ne_zero.mpr all.1
    rw [series_cons, mul_coeff_one, coeff_series_zero, ih all.2,
      coeff_lackSeries_of_le _ (Nat.zero_le _), coeff_lackSeries_of_le _ replaced, Nat.sub_zero,
      List.length_cons, List.range_succ_eq_map, List.map_cons, List.map_cons, List.sum_cons,
      spare_cons_zero, ways_cons, Nat.add_comm]
    simp only [List.map_map, Function.comp_def, spare_cons_succ, ways_cons, List.sum_map_mul_left]

theorem coeff_series_two (all : ∀ need ∈ needs, need.needed ≠ 0) :
    (series needs).coeff 2 =
      (((List.range needs.length).flatMap (sparePairs needs)).map ways).sum := by
  induction needs with
  | nil => simp [series, coeff_one]
  | cons need needs ih =>
    rw [List.forall_mem_cons] at all
    have replaced : 1 ≤ need.needed := Nat.one_le_iff_ne_zero.mpr all.1
    -- Pairs that start with this letter take it twice, or once with one of the others.
    have first : ((sparePairs (need :: needs) 0).map ways).sum =
        (lackSeries need.available need.needed).coeff 2 * ways needs +
          need.available.choose (need.needed - 1) * (series needs).coeff 1 := by
      rw [sparePairs_cons_zero _ _ all.2, List.map_append, List.sum_append,
        coeff_series_one all.2, coeff_lackSeries]
      simp only [List.map_map, Function.comp_def, ways_cons, List.sum_map_mul_left]
      congr 1
      by_cases single : need.needed - 1 = 0
      · rw [if_pos single, if_neg (by omega), List.map_nil, List.sum_nil, Nat.zero_mul]
      · rw [if_neg single, if_pos (by omega), List.map_singleton, List.sum_singleton, ways_cons,
          Nat.sub_sub]
    have later : (((List.range needs.length).flatMap fun i =>
        sparePairs (need :: needs) (i + 1)).map ways).sum =
        need.available.choose need.needed * (series needs).coeff 2 := by
      simp only [sparePairs_cons_succ]
      rw [← List.map_flatMap, List.map_map, ih all.2, ← List.sum_map_mul_left]
      simp only [Function.comp_def, ways_cons]
    rw [series_cons, coeff_mul_two, coeff_series_zero, List.length_cons, List.range_succ_eq_map,
      List.flatMap_cons, List.map_append, List.sum_append, first, List.flatMap_map, later,
      coeff_lackSeries_of_le _ (Nat.zero_le _), coeff_lackSeries_of_le _ replaced, Nat.sub_zero]
    omega

theorem sum_draws_rat (m n : Nat) (rests : List (List LetterNeed)) :
    (rests.map fun rest => binomial Rat m n * draws Rat rest).sum =
      ((m.choose n * (rests.map ways).sum : Nat) : Rat) := by
  simp only [binomial_rat, draws_rat]
  rw [List.sum_map_mul_left, Nat.cast_mul, Nat.cast_list_sum, List.map_map]
  rfl

end LetterNeed

/-! ## Tiles of a bag -/

namespace TileBag

def allTiles (bag : TileBag) : Finset Tile :=
  tilesOf bag.frequency tiles.toFinset

theorem card_allTiles (bag : TileBag) : bag.allTiles.card = bag.total := by
  rw [allTiles, tilesOf, Finset.card_sigma, total_eq_sum]
  simp only [Finset.card_range]

theorem mem_tiles_of_ofDistribution {distribution : String} {bag : TileBag}
    (read : ofDistribution distribution = .ok bag) : ∀ entry ∈ bag.entries, entry.1 ∈ tiles := by
  rintro ⟨tile, n⟩ member
  obtain ⟨_, _, gives⟩ := exists_gives_of_mem_readings (ofDistribution_eq_ok_iff.mp read).1
    (List.mem_reverse.mpr member)
  exact mem_tiles_of_gives gives

end TileBag

/-! ## Hands for a word -/

theorem le_add_replicate_iff {letters hand : Multiset Char} {blank : Char} (blanks : Nat)
    (fresh : blank ∉ letters) :
    hand ≤ letters + Multiset.replicate blanks blank ↔
      hand.count blank ≤ blanks ∧ hand.filter (· ≠ blank) ≤ letters := by
  have absent : letters.count blank = 0 := Multiset.count_eq_zero.mpr fresh
  simp only [Multiset.le_iff_count, Multiset.count_add, Multiset.count_replicate,
    Multiset.count_filter]
  constructor
  · intro within
    refine ⟨by simpa [absent] using within blank, fun kind => ?_⟩
    by_cases same : kind = blank
    · simp [same]
    · simpa [same, Ne.symm same] using within kind
  · rintro ⟨few, within⟩ kind
    by_cases same : kind = blank
    · simpa [same, absent] using few
    · simpa [same, Ne.symm same] using within kind

variable {word : String} {blanks : Nat}

def wanted (word : String) (blanks : Nat) : Multiset Char :=
  ((Text.upper word).toList : Multiset Char) + Multiset.replicate blanks blankTile

theorem card_wanted : (wanted word blanks).card = word.length + blanks := by
  rw [wanted, Multiset.card_add, Multiset.card_replicate, Multiset.coe_card, Text.toList_upper,
    List.length_map, String.length_toList]

theorem toFinset_tiles : tiles.toFinset = insert blankTile alphabet.toFinset := by decide

theorem count_wanted_letter {kind : Char} (letter : kind ∈ alphabet.toFinset) :
    (wanted word blanks).count kind = (Text.upper word).toList.count kind := by
  have other : blankTile ≠ kind := by
    rintro rfl
    exact absurd letter (by decide)
  rw [wanted, Multiset.count_add, Multiset.count_replicate, if_neg other, Nat.add_zero,
    Multiset.coe_count]

section Letters

variable (letters : ∀ c ∈ word.toList, c.isAlpha = true)
include letters

theorem blank_notMem : blankTile ∉ ((Text.upper word).toList : Multiset Char) := fun member =>
  absurd (Text.areCapitals_upper letters _ member) (by decide)

theorem count_wanted_blank : (wanted word blanks).count blankTile = blanks := by
  rw [wanted, Multiset.count_add, Multiset.count_eq_zero.mpr (blank_notMem letters),
    Multiset.count_replicate_self, Nat.zero_add]

theorem mem_tiles_of_wanted : ∀ kind ∈ wanted word blanks, kind ∈ tiles.toFinset := by
  intro kind member
  rw [toFinset_tiles, Finset.mem_insert]
  rcases Multiset.mem_add.mp member with letter | blank
  · have capital := Text.areCapitals_upper letters kind letter
    exact .inr (List.mem_toFinset.mpr (Text.mem_alphabet_iff.mpr capital))
  · exact .inl (Multiset.eq_of_mem_replicate blank)

end Letters

namespace TileBag

variable (bag : TileBag)

/-- The hands of as many tiles as a word has letters, with some blanks at most, and otherwise with
letters of the word, each at most as often as it occurs there. -/
def hands (word : String) (blanks : Nat) : Finset (Finset Tile) :=
  (bag.allTiles.powersetCard word.length).filter fun hand =>
    (kindsOf hand).count blankTile ≤ blanks ∧
      (kindsOf hand).filter (· ≠ blankTile) ≤ (Text.upper word).toList

def usableBlanks (blanks : Int32) : Nat :=
  (min 2 (max 0 blanks.toInt)).toNat

theorem needed_ne_zero (word : String) : ∀ need ∈ bag.needs word, need.needed ≠ 0 := by
  intro need member
  rw [needs, List.mem_map] at member
  obtain ⟨c, occurs, rfl⟩ := member
  exact (List.count_pos_iff.mpr (List.mem_eraseDups.mp occurs)).ne'

theorem prod_lackSeries (letters : ∀ c ∈ word.toList, c.isAlpha = true) :
    ∏ kind ∈ alphabet.toFinset,
        lackSeries (bag.frequency kind) ((Text.upper word).toList.count kind) =
      LetterNeed.series (bag.needs word) := by
  have among : (Text.upper word).toList.eraseDups.toFinset ⊆ alphabet.toFinset := by
    intro kind member
    rw [List.mem_toFinset, List.mem_eraseDups] at member
    exact List.mem_toFinset.mpr (Text.mem_alphabet_iff.mpr (Text.areCapitals_upper letters kind member))
  have others : ∀ kind ∈ alphabet.toFinset, kind ∉ (Text.upper word).toList.eraseDups.toFinset →
      lackSeries (bag.frequency kind) ((Text.upper word).toList.count kind) = 1 := by
    intro kind _ absent
    rw [List.mem_toFinset, List.mem_eraseDups] at absent
    rw [List.count_eq_zero.mpr absent, lackSeries_zero]
  rw [← Finset.prod_subset among others, List.prod_toFinset _ (nodup_eraseDups _), LetterNeed.series, needs,
    List.map_map, ← Text.toList_upper]
  rfl

theorem hands_eq_lacking (letters : ∀ c ∈ word.toList, c.isAlpha = true) (blanks : Nat) :
    bag.hands word blanks = bag.allTiles.powerset.filter fun hand =>
      kindsOf hand ≤ wanted word blanks ∧ hand.card + blanks = (wanted word blanks).card := by
  ext hand
  rw [hands, Finset.mem_filter, Finset.mem_filter, Finset.mem_powersetCard, Finset.mem_powerset,
    card_wanted, Nat.add_right_cancel_iff, wanted, le_add_replicate_iff blanks (blank_notMem letters),
    and_assoc, and_comm (a := hand.card = word.length)]

theorem card_hands (letters : ∀ c ∈ word.toList, c.isAlpha = true) (blanks : Nat) :
    (bag.hands word blanks).card =
      (lackSeries (bag.frequency blankTile) blanks * LetterNeed.series (bag.needs word)).coeff blanks := by
  have absent : blankTile ∉ alphabet.toFinset := by decide
  have spelling : ∏ kind ∈ alphabet.toFinset,
      lackSeries (bag.frequency kind) ((wanted word blanks).count kind) =
        LetterNeed.series (bag.needs word) := by
    rw [← bag.prod_lackSeries letters]
    exact Finset.prod_congr rfl fun kind member => by rw [count_wanted_letter member]
  rw [hands_eq_lacking bag letters, allTiles, card_lacking (mem_tiles_of_wanted letters),
    toFinset_tiles, Finset.prod_insert absent, count_wanted_blank letters, spelling]

theorem draws_rat (word : String) (blanks : Int32) :
    bag.draws Rat word blanks =
      (((lackSeries (bag.frequency blankTile) (usableBlanks blanks) *
        LetterNeed.series (bag.needs word)).coeff (usableBlanks blanks) : Nat) : Rat) := by
  have all := bag.needed_ne_zero word
  have summed : ∀ (first : Rat) (more : List Rat), more.foldl (· + ·) first = first + more.sum := by
    intro first more
    rw [← List.sum_cons, List.sum_eq_foldl, List.foldl_cons, zero_add]
  have oneBlank : ((List.range (bag.needs word).length).map fun i =>
      binomial Rat (bag.frequency blankTile) 1 *
        LetterNeed.draws Rat (LetterNeed.spare (bag.needs word) i)).sum =
      (((bag.frequency blankTile).choose 1 * (LetterNeed.series (bag.needs word)).coeff 1 : Nat) : Rat) := by
    rw [LetterNeed.coeff_series_one all, ← LetterNeed.sum_draws_rat, List.map_map]
    rfl
  have twoBlanks : ((List.range (bag.needs word).length).flatMap fun i =>
      (LetterNeed.sparePairs (bag.needs word) i).map fun rest =>
        binomial Rat (bag.frequency blankTile) 2 * LetterNeed.draws Rat rest).sum =
      (((bag.frequency blankTile).choose 2 * (LetterNeed.series (bag.needs word)).coeff 2 : Nat) : Rat) := by
    rw [LetterNeed.coeff_series_two all, ← LetterNeed.sum_draws_rat, List.map_flatMap]
  have one : blanks < 1 ↔ blanks.toInt < 1 := Int32.lt_iff_toInt_lt
  have two : blanks < 2 ↔ blanks.toInt < 2 := Int32.lt_iff_toInt_lt
  rw [draws, summed, List.sum_append, LetterNeed.draws_rat, ← LetterNeed.coeff_series_zero]
  simp only [one, two]
  -- The blanks taken and the letters that they replace add up to the blanks usable, so each term of
  -- the sum is one term of the coefficient of the product.
  by_cases noBlank : blanks.toInt < 1
  · have usable : usableBlanks blanks = 0 := by rw [usableBlanks]; omega
    rw [if_pos noBlank, if_pos (by omega), usable, mul_coeff_zero, coeff_lackSeries_of_le _ le_rfl,
      Nat.sub_self, Nat.choose_zero_right, Nat.one_mul, List.sum_nil, add_zero, add_zero]
  · by_cases single : blanks.toInt < 2
    · have usable : usableBlanks blanks = 1 := by rw [usableBlanks]; omega
      rw [if_neg noBlank, if_pos single, oneBlank, usable, mul_coeff_one,
        coeff_lackSeries_of_le _ (Nat.zero_le _), coeff_lackSeries_of_le _ le_rfl, Nat.sub_self,
        Nat.choose_zero_right, Nat.one_mul, List.sum_nil, add_zero, Nat.add_comm, Nat.cast_add]
    · have usable : usableBlanks blanks = 2 := by rw [usableBlanks]; omega
      rw [if_neg noBlank, if_neg single, oneBlank, twoBlanks, usable, LetterNeed.coeff_mul_two,
        coeff_lackSeries_of_le _ (Nat.zero_le _), coeff_lackSeries_of_le _ one_le_two,
        coeff_lackSeries_of_le _ le_rfl, Nat.sub_self, Nat.choose_zero_right, Nat.one_mul]
      push_cast
      ring

/-- In exact arithmetic the number of draws of a word is the number of hands that have letters of the
word and blanks for the others. The binomial coefficients that go into it are computed without
remainders. -/
theorem draws_eq_card_hands (word : String) (blanks : Int32)
    (letters : ∀ c ∈ word.toList, c.isAlpha = true) :
    bag.draws Rat word blanks = ((bag.hands word (usableBlanks blanks)).card : Rat) ∧
      ∀ m n : Nat, binomial Rat m n = (m.choose n : Rat) ∧
        (n ≤ m → binomial Rat m n = binomialSteps Rat m (min n (m - n))) ∧
        ∀ steps, ∃ product quotient : Nat, binomialSteps Rat m steps = product ∧
          product * (m - steps) = quotient * (steps + 1) ∧
          binomialSteps Rat m (steps + 1) = quotient := by
  have counted : bag.draws Rat word blanks = ((bag.hands word (usableBlanks blanks)).card : Rat) := by
    rw [draws_rat, card_hands bag letters]
  refine ⟨counted, fun m n => ⟨binomial_rat m n, fun within => ?_, exists_exact_step m⟩⟩
  rw [binomial_eq_steps, if_neg (Nat.not_lt.mpr within)]

/-- Of the twenty hands of three tiles, the ten without the `C` will do. -/
theorem draws_eq_card_hands_aAb :
    let bag : TileBag := ⟨[('_', 2), ('C', 1), ('B', 1), ('A', 2)]⟩
    ofDistribution "A:2 B:1 C:1 _:2" = .ok bag ∧ (∀ c ∈ "aAb".toList, c.isAlpha = true) ∧
      (bag.hands "aAb" (usableBlanks 7)).card = 10 ∧ bag.draws Rat "aAb" 7 = 10 := by
  intro bag
  have letters : ∀ c ∈ "aAb".toList, c.isAlpha = true := List.all_eq_true.mp (by decide)
  have counted : (bag.hands "aAb" (usableBlanks 7)).card = 10 := by decide +kernel
  have drawn := (bag.draws_eq_card_hands "aAb" 7 letters).1
  rw [counted] at drawn
  exact ⟨rfl, letters, counted, drawn⟩

end TileBag

end WordFinder
