import Mathlib
import WordFinder.Tile.Bag

/-!
# Hands of tiles

The tiles of a kind are told apart by numbers, and a hand is a set of tiles. If hands are weighed by a
factor for each kind that depends on how many tiles of the kind they have, then the weights of all
hands add up to a product over the kinds. With powers of a variable as factors, that product counts the
hands with letters of a word by the number of letters that they lack.
-/
set_option autoImplicit false

namespace WordFinder

open Polynomial

/-- A kind of tile, and a number among the tiles of that kind. -/
abbrev Tile : Type := (_ : Char) × Nat

def tilesOf (count : Char → Nat) (kinds : Finset Char) : Finset Tile :=
  kinds.sigma fun kind => Finset.range (count kind)

def kindsOf (hand : Finset Tile) : Multiset Char :=
  hand.val.map (·.1)

theorem count_kindsOf (hand : Finset Tile) (kind : Char) :
    (kindsOf hand).count kind = (hand.filter (·.1 = kind)).card := by
  rw [kindsOf, Multiset.count_map]
  simp only [eq_comm]
  rfl

theorem card_kindsOf (hand : Finset Tile) : (kindsOf hand).card = hand.card :=
  Multiset.card_map _ _

theorem mem_tilesOf {count : Char → Nat} {kinds : Finset Char} {tile : Tile} :
    tile ∈ tilesOf count kinds ↔ tile.1 ∈ kinds ∧ tile.2 < count tile.1 := by
  rw [tilesOf, Finset.mem_sigma, Finset.mem_range]

theorem count_kindsOf_union {one other : Finset Tile} {kind : Char}
    (none : ∀ tile ∈ one, tile.1 ≠ kind) :
    (kindsOf (one ∪ other)).count kind = (kindsOf other).count kind := by
  rw [count_kindsOf, count_kindsOf, Finset.filter_union, Finset.filter_false_of_mem none,
    Finset.empty_union]

theorem count_kindsOf_of_all {hand : Finset Tile} {kind : Char} (all : ∀ tile ∈ hand, tile.1 = kind) :
    (kindsOf hand).count kind = hand.card := by
  rw [count_kindsOf, Finset.filter_true_of_mem all]

/-! ## Weights of hands -/

section Weights

variable {R : Type} [CommSemiring R]

theorem sum_powerset_union {first second : Finset Tile} (disjoint : Disjoint first second)
    (f : Finset Tile → R) :
    ∑ hand ∈ (first ∪ second).powerset, f hand =
      ∑ one ∈ first.powerset, ∑ other ∈ second.powerset, f (one ∪ other) := by
  induction first using Finset.induction_on generalizing f with
  | empty => simp
  | insert tile first fresh ih =>
    rw [Finset.disjoint_insert_left] at disjoint
    have new : tile ∉ first ∪ second := by
      rw [Finset.mem_union]
      exact not_or.mpr ⟨fresh, disjoint.1⟩
    rw [Finset.insert_union, Finset.sum_powerset_insert new, Finset.sum_powerset_insert fresh,
      ih disjoint.2, ih disjoint.2]
    simp only [Finset.insert_union]

variable (count : Char → Nat) (weight : Char → Nat → R)

theorem sum_weight_single (kind : Char) :
    ∑ hand ∈ (tilesOf count {kind}).powerset, weight kind hand.card =
      ∑ taken ∈ Finset.range (count kind + 1), (count kind).choose taken • weight kind taken := by
  have sized : (tilesOf count {kind}).card = count kind := by
    rw [tilesOf, Finset.card_sigma, Finset.sum_singleton, Finset.card_range]
  rw [Finset.sum_powerset_apply_card, sized]

variable {kind : Char} {kinds : Finset Char}

theorem tilesOf_insert :
    tilesOf count (insert kind kinds) = tilesOf count {kind} ∪ tilesOf count kinds := by
  ext tile
  simp only [Finset.mem_union, mem_tilesOf, Finset.mem_insert, Finset.mem_singleton]
  tauto

theorem disjoint_tilesOf (fresh : kind ∉ kinds) :
    Disjoint (tilesOf count {kind}) (tilesOf count kinds) := by
  rw [Finset.disjoint_left]
  intro tile one other
  rw [mem_tilesOf, Finset.mem_singleton] at one
  exact fresh (one.1 ▸ (mem_tilesOf.mp other).1)

/-- Tiles of one kind and a hand without it weigh as much together as their weights multiplied. -/
theorem prod_weight_union (fresh : kind ∉ kinds) {one other : Finset Tile}
    (ofKind : one ⊆ tilesOf count {kind}) (ofOthers : other ⊆ tilesOf count kinds) :
    ∏ k ∈ insert kind kinds, weight k ((kindsOf (one ∪ other)).count k) =
      weight kind one.card * ∏ k ∈ kinds, weight k ((kindsOf other).count k) := by
  have all : ∀ tile ∈ one, tile.1 = kind := fun tile member =>
    Finset.mem_singleton.mp (mem_tilesOf.mp (ofKind member)).1
  have others : ∀ tile ∈ other, tile.1 ≠ kind := by
    rintro tile member rfl
    exact fresh (mem_tilesOf.mp (ofOthers member)).1
  have mine : (kindsOf (one ∪ other)).count kind = one.card := by
    rw [Finset.union_comm, count_kindsOf_union others, count_kindsOf_of_all all]
  rw [Finset.prod_insert fresh, mine]
  refine congrArg _ (Finset.prod_congr rfl fun k member => ?_)
  have different : ∀ tile ∈ one, tile.1 ≠ k := by
    rintro tile here rfl
    exact fresh (all tile here ▸ member)
  rw [count_kindsOf_union different]

theorem sum_weight (kinds : Finset Char) :
    ∑ hand ∈ (tilesOf count kinds).powerset, ∏ kind ∈ kinds, weight kind ((kindsOf hand).count kind) =
      ∏ kind ∈ kinds,
        ∑ taken ∈ Finset.range (count kind + 1), (count kind).choose taken • weight kind taken := by
  induction kinds using Finset.induction_on with
  | empty => simp [tilesOf]
  | insert kind kinds fresh ih =>
    rw [tilesOf_insert, sum_powerset_union (disjoint_tilesOf count fresh), Finset.prod_insert fresh,
      ← sum_weight_single, ← ih, Finset.sum_mul_sum]
    refine Finset.sum_congr rfl fun one ofKind => Finset.sum_congr rfl fun other ofOthers => ?_
    exact prod_weight_union count weight fresh (Finset.mem_powerset.mp ofKind)
      (Finset.mem_powerset.mp ofOthers)

end Weights

/-! ## Hands that lack letters -/

/-- The power of what is lacking to the number needed. Too many tiles count for nothing. -/
noncomputable def lackPower (needed taken : Nat) : ℕ[X] :=
  if taken ≤ needed then X ^ (needed - taken) else 0

/-- Counts the ways to take any number of tiles, of those that there are, by how many are lacking. -/
noncomputable def lackSeries (available needed : Nat) : ℕ[X] :=
  ∑ taken ∈ Finset.range (available + 1), available.choose taken • lackPower needed taken

theorem coeff_lackPower (needed taken lacking : Nat) :
    (lackPower needed taken).coeff lacking = if taken + lacking = needed then 1 else 0 := by
  rw [lackPower, apply_ite (coeff · lacking), coeff_X_pow, coeff_zero]
  split_ifs <;> omega

theorem coeff_lackSeries (available needed lacking : Nat) :
    (lackSeries available needed).coeff lacking =
      if lacking ≤ needed then available.choose (needed - lacking) else 0 := by
  simp only [lackSeries, finsetSum_coeff, coeff_smul, coeff_lackPower, smul_eq_mul, mul_ite, mul_one,
    mul_zero]
  split
  · next within =>
    rw [Finset.sum_eq_single (needed - lacking)]
    · rw [if_pos (Nat.sub_add_cancel within)]
    · intro taken _ other
      rw [if_neg (by omega)]
    · intro beyond
      rw [Finset.mem_range, Nat.lt_succ_iff, not_le] at beyond
      rw [if_pos (Nat.sub_add_cancel within), Nat.choose_eq_zero_of_lt beyond]
  · next beyond =>
    exact Finset.sum_eq_zero fun taken _ => if_neg (by omega)

theorem coeff_lackSeries_of_le {needed lacking : Nat} (available : Nat) (within : lacking ≤ needed) :
    (lackSeries available needed).coeff lacking = available.choose (needed - lacking) := by
  rw [coeff_lackSeries, if_pos within]

theorem lackSeries_zero (available : Nat) : lackSeries available 0 = 1 := by
  ext lacking
  rw [coeff_lackSeries, coeff_one]
  split <;> simp_all

section Lacking

variable {count : Char → Nat} {kinds : Finset Char} {wanted : Multiset Char} {hand : Finset Tile}

theorem count_kindsOf_eq_zero (drawn : hand ⊆ tilesOf count kinds) {kind : Char}
    (unknown : kind ∉ kinds) : (kindsOf hand).count kind = 0 := by
  rw [count_kindsOf, Finset.card_eq_zero, Finset.filter_eq_empty_iff]
  rintro tile member rfl
  exact unknown (mem_tilesOf.mp (drawn member)).1

theorem kindsOf_le_iff (drawn : hand ⊆ tilesOf count kinds) :
    kindsOf hand ≤ wanted ↔ ∀ kind ∈ kinds, (kindsOf hand).count kind ≤ wanted.count kind := by
  rw [Multiset.le_iff_count]
  refine ⟨fun within kind _ => within kind, fun within kind => ?_⟩
  by_cases known : kind ∈ kinds
  · exact within kind known
  · rw [count_kindsOf_eq_zero drawn known]
    exact Nat.zero_le _

/-- The factors of a hand multiply to the power of how many letters it lacks, if all that it has are
wanted. -/
theorem prod_lack (known : ∀ kind ∈ wanted, kind ∈ kinds) (drawn : hand ⊆ tilesOf count kinds) :
    ∏ kind ∈ kinds, lackPower (wanted.count kind) ((kindsOf hand).count kind) =
      if kindsOf hand ≤ wanted then X ^ (wanted.card - hand.card) else 0 := by
  have cards : kindsOf hand ≤ wanted →
      ∑ kind ∈ kinds, (wanted.count kind - (kindsOf hand).count kind) = wanted.card - hand.card := by
    intro within
    have covered : ∀ kind ∈ wanted - kindsOf hand, kind ∈ kinds := fun kind member =>
      known kind (Multiset.mem_of_le (Multiset.sub_le_self _ _) member)
    rw [← card_kindsOf, ← Multiset.card_sub within, ← Multiset.sum_count_eq_card covered]
    exact Finset.sum_congr rfl fun kind _ => (Multiset.count_sub kind wanted _).symm
  simp only [lackPower, Finset.prod_ite_zero, Finset.prod_pow_eq_pow_sum]
  by_cases within : kindsOf hand ≤ wanted
  · rw [if_pos within, if_pos ((kindsOf_le_iff drawn).mp within), cards within]
  · rw [if_neg within, if_neg (mt (kindsOf_le_iff drawn).mpr within)]

/-- The hands that have only wanted letters and lack a number of them are counted by a coefficient. -/
theorem card_lacking (known : ∀ kind ∈ wanted, kind ∈ kinds) (lacking : Nat) :
    ((tilesOf count kinds).powerset.filter fun hand =>
        kindsOf hand ≤ wanted ∧ hand.card + lacking = wanted.card).card =
      (∏ kind ∈ kinds, lackSeries (count kind) (wanted.count kind)).coeff lacking := by
  have counted : ∀ hand ∈ (tilesOf count kinds).powerset,
      (∏ kind ∈ kinds, lackPower (wanted.count kind) ((kindsOf hand).count kind)).coeff lacking =
        if kindsOf hand ≤ wanted ∧ hand.card + lacking = wanted.card then 1 else 0 := by
    intro hand drawn
    rw [prod_lack known (Finset.mem_powerset.mp drawn)]
    by_cases within : kindsOf hand ≤ wanted
    · -- Subtraction loses nothing here: the hand has no more tiles than are wanted.
      have fits : hand.card ≤ wanted.card := card_kindsOf hand ▸ Multiset.card_le_card within
      rw [if_pos within, coeff_X_pow]
      exact if_congr (by simp only [within, true_and]; omega) rfl rfl
    · simp [within]
  rw [Finset.card_filter, ← Finset.sum_congr rfl counted, ← finsetSum_coeff,
    sum_weight count fun kind => lackPower (wanted.count kind)]
  rfl

end Lacking

end WordFinder
