import Mathlib
import WordFinder.Proofs.Probability.Ties
import WordFinder.Probability.Limit

/-!
# What bounds on ranks keep

The stretch of an order that some bounds keep, word by word: the strict bounds admit the rank of the
word, and there is a word that ties with it at a rank that both the strict and the lax bounds admit.
-/
set_option autoImplicit false

namespace WordFinder.RankBounds

open ProbabilityOrder

variable {ranked : List RankedWord} {i p : Nat} {r t : RankedWord}

theorem le_add_tiesBefore_iff (descending : IsDescending ranked) (here : ranked[p]? = some t)
    (earlier : ranked[i]? = some r) (before : i ≤ p) :
    p ≤ i + tiesBefore ranked p ↔ r.draws = t.draws := by
  rcases Nat.eq_or_lt_of_le before with rfl | less
  · rw [here, Option.some.injEq] at earlier
    simp [earlier]
  · have stand : (ranked.take p).reverse[p - 1 - i]? = some r := by
      have short : (ranked.take p).length = p :=
        List.length_take_of_le (Nat.le_of_lt (List.getElem?_eq_some_iff.mp here).1)
      rw [List.getElem?_reverse (by omega), short, List.getElem?_take_of_lt (by omega),
        show p - 1 - (p - 1 - i) = i by omega]
      exact earlier
    have likelier : ∀ s ∈ ranked.take p, t.draws ≤ s.draws := by
      intro s member
      obtain ⟨k, within, place⟩ := List.mem_take_iff_getElem.mp member
      exact descending.draws_le (List.getElem?_eq_some_iff.mpr ⟨_, place⟩) here (by omega)
    have first : (ranked.take p).reverse.Pairwise fun a b =>
        (b.draws == t.draws) = true → (a.draws == t.draws) = true := by
      rw [List.pairwise_reverse]
      refine (descending.sublist (List.take_sublist p ranked)).imp_of_mem fun _ memberB less same => ?_
      rw [beq_iff_eq] at same ⊢
      exact UInt64.le_antisymm (same ▸ less) (likelier _ memberB)
    have among := lt_length_takeWhile_iff first stand
    rw [beq_iff_eq] at among
    simp only [tiesBefore, here]
    rw [← among]
    omega

theorem le_add_tiesAfter_iff (descending : IsDescending ranked) (here : ranked[p]? = some t)
    (later : ranked[i]? = some r) (after : p ≤ i) :
    i ≤ p + tiesAfter ranked p ↔ r.draws = t.draws := by
  rcases Nat.eq_or_lt_of_le after with rfl | less
  · rw [here, Option.some.injEq] at later
    simp [later]
  · have stand : (ranked.drop (p + 1))[i - (p + 1)]? = some r := by
      rw [List.getElem?_drop, Nat.add_sub_cancel' less]
      exact later
    have unlikelier : ∀ s ∈ ranked.drop (p + 1), s.draws ≤ t.draws := by
      intro s member
      obtain ⟨k, place⟩ := List.mem_iff_getElem?.mp member
      rw [List.getElem?_drop] at place
      exact descending.draws_le here place (by omega)
    have first : (ranked.drop (p + 1)).Pairwise fun a b =>
        (b.draws == t.draws) = true → (a.draws == t.draws) = true := by
      refine (descending.sublist (List.drop_sublist _ ranked)).imp_of_mem fun memberA _ less same => ?_
      rw [beq_iff_eq] at same ⊢
      exact UInt64.le_antisymm (unlikelier _ memberA) (same ▸ less)
    have among := lt_length_takeWhile_iff first stand
    rw [beq_iff_eq] at among
    simp only [tiesAfter, here]
    rw [← among]
    omega

def Admits (b : RankBounds) (rank : Int) : Prop :=
  b.min ≤ rank ∧ rank ≤ b.max

def AdmitsLax (b : RankBounds) (rank : Int) : Prop :=
  b.laxMin ≤ rank ∧ rank ≤ b.laxMax

theorem mem_take_drop_iff {α : Type} {l : List α} {low count : Nat} {a : α} :
    a ∈ (l.drop low).take count ↔ ∃ i, l[i]? = some a ∧ low ≤ i ∧ i < low + count := by
  rw [List.mem_iff_getElem?]
  constructor
  · intro holds
    obtain ⟨k, place⟩ := holds
    rw [List.getElem?_take] at place
    split at place
    · next less =>
      rw [List.getElem?_drop] at place
      exact ⟨low + k, place, Nat.le_add_right low k, Nat.add_lt_add_left less low⟩
    · contradiction
  · intro holds
    obtain ⟨i, place, least, most⟩ := holds
    refine ⟨i - low, ?_⟩
    rw [List.getElem?_take_of_lt (by omega), List.getElem?_drop, Nat.add_sub_cancel' least]
    exact place

/-- A stretch of an order, widened by the words that tie with its ends as far as two limits, has the
words within the limits that tie with a word of the stretch. -/
theorem mem_widened_iff (descending : IsDescending ranked) {lowest highest : Int} {first last : Nat}
    (positive : 0 ≤ lowest) (ordered : first ≤ last) (high : last ≤ highest)
    (within : last < ranked.length) :
    r ∈ (ranked.drop (Max.max lowest (first - tiesBefore ranked first)).toNat).take
        (Min.min highest (last + tiesAfter ranked last) -
          Max.max lowest (first - tiesBefore ranked first) + 1).toNat ↔
      ∃ i : Nat, ranked[i]? = some r ∧ lowest ≤ i ∧ i ≤ highest ∧
        ∃ j t, ranked[j]? = some t ∧ t.draws = r.draws ∧ first ≤ j ∧ j ≤ last := by
  obtain ⟨f, firstPlace⟩ : ∃ f, ranked[first]? = some f :=
    ⟨_, List.getElem?_eq_getElem (Nat.lt_of_le_of_lt ordered within)⟩
  obtain ⟨l, lastPlace⟩ : ∃ l, ranked[last]? = some l := ⟨_, List.getElem?_eq_getElem within⟩
  rw [mem_take_drop_iff]
  refine exists_congr fun i => and_congr_right fun place => ?_
  constructor
  · intro inside
    refine ⟨by omega, by omega, ?_⟩
    rcases Nat.lt_or_ge i first with before | notBefore
    · have tie := (le_add_tiesBefore_iff descending firstPlace place (by omega)).mp (by omega)
      exact ⟨first, f, firstPlace, tie.symm, Nat.le_refl _, ordered⟩
    · rcases Nat.lt_or_ge last i with after | notAfter
      · have tie := (le_add_tiesAfter_iff descending lastPlace place (by omega)).mp (by omega)
        exact ⟨last, l, lastPlace, tie.symm, ordered, Nat.le_refl _⟩
      · exact ⟨i, r, place, rfl, notBefore, notAfter⟩
  · intro holds
    obtain ⟨least, most, j, t, placeT, tie, firstLe, leLast⟩ := holds
    -- What stands between two words that tie, ties with them.
    have downTo : first ≤ i + tiesBefore ranked first := by
      rcases Nat.lt_or_ge i first with before | notBefore
      · refine (le_add_tiesBefore_iff descending firstPlace place (by omega)).mpr ?_
        exact UInt64.le_antisymm (tie ▸ descending.draws_le firstPlace placeT firstLe)
          (descending.draws_le place firstPlace (by omega))
      · omega
    have upTo : i ≤ last + tiesAfter ranked last := by
      rcases Nat.lt_or_ge last i with after | notAfter
      · refine (le_add_tiesAfter_iff descending lastPlace place (by omega)).mpr ?_
        exact UInt64.le_antisymm (descending.draws_le lastPlace place (by omega))
          (tie ▸ descending.draws_le placeT lastPlace leLast)
      · omega
    omega

/-- Bounds keep a word if the strict ones admit its rank and it ties with a word at a rank that all
of them admit. -/
theorem mem_kept_iff (descending : IsDescending ranked) (b : RankBounds) :
    r ∈ b.kept ranked ↔ ∃ i : Nat, ranked[i]? = some r ∧ b.Admits (i + 1) ∧
      ∃ j : Nat, ∃ t, ranked[j]? = some t ∧ t.draws = r.draws ∧ b.Admits (j + 1) ∧
        b.AdmitsLax (j + 1) := by
  rw [kept]
  dsimp only
  split
  · next none =>
    simp only [Bool.or_eq_true, decide_eq_true_eq] at none
    simp only [List.not_mem_nil, false_iff]
    intro holds
    obtain ⟨_, _, _, j, _, place, _, admits, lax⟩ := holds
    have within := (List.getElem?_eq_some_iff.mp place).1
    simp only [Admits, AdmitsLax] at admits lax
    omega
  · next some =>
    simp only [Bool.or_eq_true, decide_eq_true_eq, not_or, Int.not_le, Int.not_lt] at some
    obtain ⟨first, firstEq⟩ := Int.eq_ofNat_of_zero_le
      (a := Max.max (Max.max (b.min - 1) 0) (b.laxMin - 1)) (by omega)
    obtain ⟨last, lastEq⟩ := Int.eq_ofNat_of_zero_le
      (a := Min.min (Min.min (b.max - 1) (ranked.length - 1)) (b.laxMax - 1)) (by omega)
    rw [firstEq, lastEq, Int.toNat_natCast, Int.toNat_natCast, mem_widened_iff descending (by omega)
      (by omega) (by omega) (by omega)]
    constructor
    · intro holds
      obtain ⟨i, place, least, most, j, t, placeT, tie, firstLe, leLast⟩ := holds
      refine ⟨i, place, ?_, j, t, placeT, tie, ?_, ?_⟩
      · exact ⟨by omega, by omega⟩
      · exact ⟨by omega, by omega⟩
      · exact ⟨by omega, by omega⟩
    · intro holds
      obtain ⟨i, place, admits, j, t, placeT, tie, admitsT, lax⟩ := holds
      have within := (List.getElem?_eq_some_iff.mp place).1
      have withinT := (List.getElem?_eq_some_iff.mp placeT).1
      simp only [Admits, AdmitsLax] at admits admitsT lax
      exact ⟨i, place, by omega, by omega, j, t, placeT, tie, by omega, by omega⟩

end WordFinder.RankBounds
