import Mathlib
import WordFinder.Probability.Order

/-!
# Ranks in a probability order

The order of different words is a rearrangement of them, whatever their numbers of draws, and a rank
is a place in it. So the ranks of different words run from one to their number, and each is held by
one word.
-/
set_option autoImplicit false

namespace WordFinder.ProbabilityOrder

theorem dropRepeats_of_nodup {ranked : List RankedWord} (nodup : (ranked.map (·.word)).Nodup) :
    dropRepeats ranked = ranked := by
  induction ranked with
  | nil => simp [dropRepeats]
  | cons r ranked ih =>
    obtain ⟨others, rest⟩ := List.nodup_cons.mp nodup
    cases ranked with
    | nil => simp [dropRepeats]
    | cons s ranked =>
      have distinct : r.word ≠ s.word := by
        intro same
        exact others (List.mem_map.mpr ⟨s, List.mem_cons_self, same.symm⟩)
      rw [dropRepeats, if_neg distinct, ih rest]

theorem words_ofWords_perm (bag : TileBag) (blanks : Int32) (byAlphagram : Bool)
    {words : List String} (nodup : words.Nodup) :
    (ofWords bag blanks byAlphagram words).words.Perm words := by
  let rankedWord (word : String) : RankedWord :=
    ⟨(bag.combinations word blanks).toUInt64, if byAlphagram then alphagram word else "", word⟩
  have sorted : (((words.map rankedWord).mergeSort RankedWord.le).map (·.word)).Perm words := by
    have spelled : (words.map rankedWord).map (·.word) = words := by
      rw [List.map_map]
      exact List.map_id' words
    have perm := (List.mergeSort_perm (words.map rankedWord) RankedWord.le).map (·.word)
    rwa [spelled] at perm
  have kept := dropRepeats_of_nodup (sorted.nodup_iff.mpr nodup)
  rw [ProbabilityOrder.words, ofWords, kept]
  exact sorted

variable {o : ProbabilityOrder} {word : String}

theorem rank?_eq_idxOf? (o : ProbabilityOrder) (word : String) :
    o.rank? word = (o.words.idxOf? word).map (· + 1) := by
  rw [rank?, words, List.idxOf?, List.findIdx?_map]
  rfl

theorem rank?_eq_some_iff (nodup : o.words.Nodup) {rank : Nat} :
    o.rank? word = some rank ↔ 0 < rank ∧ o.words[rank - 1]? = some word := by
  rw [rank?_eq_idxOf?, Option.map_eq_some_iff]
  constructor
  · intro holds
    obtain ⟨place, found, rfl⟩ := holds
    obtain ⟨within, here, _⟩ := List.idxOf?_eq_some_iff.mp found
    exact ⟨Nat.succ_pos place, List.getElem?_eq_some_iff.mpr ⟨within, here⟩⟩
  · intro holds
    obtain ⟨positive, found⟩ := holds
    obtain ⟨within, here⟩ := List.getElem?_eq_some_iff.mp found
    refine ⟨rank - 1, List.idxOf?_eq_some_iff.mpr ⟨within, here, fun earlier before same => ?_⟩,
      Nat.sub_add_cancel positive⟩
    have place := nodup.getElem_inj_iff.mp (same.trans here.symm)
    omega

theorem exists_rank_of_mem (nodup : o.words.Nodup) (member : word ∈ o.words) :
    ∃ rank, o.rank? word = some rank := by
  obtain ⟨place, found⟩ := List.mem_iff_getElem?.mp member
  exact ⟨place + 1, (rank?_eq_some_iff nodup).mpr ⟨Nat.succ_pos place, found⟩⟩

theorem rank_bounds (nodup : o.words.Nodup) {rank : Nat} (ranked : o.rank? word = some rank) :
    0 < rank ∧ rank ≤ o.words.length := by
  obtain ⟨positive, found⟩ := (rank?_eq_some_iff nodup).mp ranked
  obtain ⟨within, _⟩ := List.getElem?_eq_some_iff.mp found
  omega

theorem existsUnique_of_rank (nodup : o.words.Nodup) {rank : Nat} (positive : 0 < rank)
    (within : rank ≤ o.words.length) : ∃! word, o.rank? word = some rank := by
  have place : rank - 1 < o.words.length := by omega
  refine ⟨o.words[rank - 1], (rank?_eq_some_iff nodup).mpr ⟨positive, List.getElem?_eq_getElem place⟩,
    fun other ranked => ?_⟩
  obtain ⟨_, found⟩ := (rank?_eq_some_iff nodup).mp ranked
  rw [List.getElem?_eq_getElem place] at found
  exact (Option.some.inj found).symm

theorem inRange_self_iff (rank : Int) :
    o.inRange word rank rank false = true ↔ (o.rank? word).map Int.ofNat = some rank := by
  rw [inRange, if_neg Bool.false_ne_true]
  cases o.rank? word with
  | none => simp
  | some place =>
    simp only [Option.map_some, Bool.and_eq_true, decide_eq_true_eq, Option.some.injEq]
    constructor
    · intro holds
      exact Int.le_antisymm holds.2 holds.1
    · rintro rfl
      exact ⟨Int.le_refl _, Int.le_refl _⟩

end WordFinder.ProbabilityOrder
