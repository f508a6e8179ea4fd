import Mathlib
import WordFinder.Proofs.Probability.WordSet

/-!
# Ranges of ranks

A strict check asks for the rank of a word to lie between two bounds, a lax check compares the bounds
with the ends of the tie range of the word. That is to ask for a rank in the tie range that lies between
the bounds, as long as they are in order. Bounds in the wrong order have no rank between them, and yet
a lax check admits a word whose tie range has both of them.
-/
set_option autoImplicit false

namespace WordFinder.ProbabilityOrder

variable {o : ProbabilityOrder} {word : String} {min max : Int}

/-! ## Tie ranges -/

theorem add_tiesAfter_lt {ranked : List RankedWord} {i : Nat} (within : i < ranked.length) :
    i + RankBounds.tiesAfter ranked i < ranked.length := by
  simp only [RankBounds.tiesAfter, List.getElem?_eq_getElem within]
  have atMost := ((ranked.drop (i + 1)).takeWhile_sublist fun s =>
    s.draws == ranked[i].draws).length_le
  rw [List.length_drop] at atMost
  omega

/-- A tie range is found by a scan to either side of the place of its word, up to the first word that
does not tie. -/
theorem tieRange?_eq_scans (descending : IsDescending o.ranked) (nodup : o.words.Nodup) {i : Nat}
    {r : RankedWord} (here : o.ranked[i]? = some r) :
    o.tieRange? r.word = some (i - RankBounds.tiesBefore o.ranked i + 1,
      i + RankBounds.tiesAfter o.ranked i + 1) := by
  obtain ⟨first, last, range, positive, ties⟩ := exists_tieRange descending nodup here
  obtain ⟨least, most⟩ := (ties i).mpr ⟨r, here, rfl⟩
  have within := (List.getElem?_eq_some_iff.mp here).1
  have start : first = i - RankBounds.tiesBefore o.ranked i + 1 := by
    obtain ⟨s, placeS, tieS⟩ := (ties (first - 1)).mp (by omega)
    have reached := (RankBounds.le_add_tiesBefore_iff descending here placeS (by omega)).mpr tieS
    have place : o.ranked[i - RankBounds.tiesBefore o.ranked i]? = some _ :=
      List.getElem?_eq_getElem (by omega)
    have tie := (RankBounds.le_add_tiesBefore_iff descending here place (by omega)).mp (by omega)
    have inside := (ties _).mpr ⟨_, place, tie⟩
    omega
  have stop : last = i + RankBounds.tiesAfter o.ranked i + 1 := by
    obtain ⟨s, placeS, tieS⟩ := (ties (last - 1)).mp (by omega)
    have reached := (RankBounds.le_add_tiesAfter_iff descending here placeS (by omega)).mpr tieS
    have place : o.ranked[i + RankBounds.tiesAfter o.ranked i]? = some _ :=
      List.getElem?_eq_getElem (add_tiesAfter_lt within)
    have tie := (RankBounds.le_add_tiesAfter_iff descending here place (by omega)).mp (by omega)
    have inside := (ties _).mpr ⟨_, place, tie⟩
    omega
  rw [range, start, stop]

theorem exists_ranks_of_mem (descending : IsDescending o.ranked) (nodup : o.words.Nodup)
    (member : word ∈ o.words) :
    ∃ rank first last : Nat, o.rank? word = some rank ∧ o.tieRange? word = some (first, last) ∧
      first ≤ rank ∧ rank ≤ last := by
  obtain ⟨r, listed, rfl⟩ := List.mem_map.mp member
  obtain ⟨i, here⟩ := List.mem_iff_getElem?.mp listed
  obtain ⟨first, last, range, _, ties⟩ := exists_tieRange descending nodup here
  obtain ⟨least, most⟩ := (ties i).mpr ⟨r, here, rfl⟩
  refine ⟨i + 1, first, last, (rank?_eq_some_iff nodup).mpr ⟨Nat.succ_pos i, ?_⟩, range, least, most⟩
  rw [Nat.add_sub_cancel, words, List.getElem?_map, here]
  rfl

/-! ## Checks -/

theorem inRange_of_rank {rank : Nat} (ranked : o.rank? word = some rank) :
    o.inRange word min max false = true ↔ min ≤ rank ∧ rank ≤ max := by
  simp [inRange, ranked]

theorem inRange_of_tieRange {first last : Nat} (range : o.tieRange? word = some (first, last)) :
    o.inRange word min max true = true ↔ min ≤ last ∧ first ≤ max := by
  simp [inRange, range]

/-- Two stretches share a rank if each begins before the other ends, provided that neither is empty. -/
theorem ends_overlap_iff {first last : Nat} (nonempty : first ≤ last) :
    min ≤ last ∧ first ≤ max ↔
      (∃ rank : Nat, first ≤ rank ∧ rank ≤ last ∧ min ≤ rank ∧ rank ≤ max) ∨
        (max < min ∧ first ≤ max ∧ min ≤ last) := by
  constructor
  · intro overlap
    rcases lt_or_ge max min with inverted | ordered
    · exact Or.inr ⟨inverted, overlap.2, overlap.1⟩
    · exact Or.inl ⟨Max.max first min.toNat, by omega, by omega, by omega, by omega⟩
  · rintro (⟨rank, _, _, _, _⟩ | ⟨_, below, above⟩)
    · omega
    · exact ⟨above, below⟩

theorem not_inRange_of_notMem (unlisted : word ∉ o.words) (lax : Bool) :
    o.inRange word min max lax = false := by
  have unranked : o.rank? word = none := by
    rw [rank?_eq_idxOf?, List.idxOf?_eq_none_iff.mpr unlisted, Option.map_none]
  have unfound : o.find? word = none := by
    rw [find?, List.find?_eq_none]
    intro r listed same
    rw [beq_iff_eq] at same
    exact unlisted (List.mem_map.mpr ⟨r, listed, same⟩)
  cases lax <;> simp [inRange, unranked, tieRange?, unfound]

/-- A word that is listed has a rank and ties for a stretch of ranks that has it. A strict check holds
if the rank lies between the bounds. A lax check holds if a rank of the stretch lies between them, or if
the bounds are in the wrong order and the stretch has both. No check holds of another word. -/
theorem inRange_ofWords (bag : TileBag) (blanks : Int32) (byAlphagram : Bool) (words : List String)
    (word : String) (min max : Int) :
    let o := ofWords bag blanks byAlphagram words
    (word ∈ o.words → ∃ rank first last : Nat, o.rank? word = some rank ∧
        o.tieRange? word = some (first, last) ∧ first ≤ rank ∧ rank ≤ last ∧
        (o.inRange word min max false = true ↔ min ≤ rank ∧ rank ≤ max) ∧
        (o.inRange word min max true = true ↔
          (∃ tied : Nat, first ≤ tied ∧ tied ≤ last ∧ min ≤ tied ∧ tied ≤ max) ∨
            (max < min ∧ first ≤ max ∧ min ≤ last))) ∧
      (word ∉ o.words → ∀ lax, o.inRange word min max lax = false) := by
  intro o
  refine ⟨fun listed => ?_, fun unlisted lax => not_inRange_of_notMem unlisted lax⟩
  obtain ⟨rank, first, last, ranked, range, least, most⟩ := exists_ranks_of_mem
    (isDescending_ofWords bag blanks byAlphagram words)
    (nodup_words_ofWords bag blanks byAlphagram words) listed
  refine ⟨rank, first, last, ranked, range, least, most, inRange_of_rank ranked, ?_⟩
  rw [inRange_of_tieRange range, ends_overlap_iff (least.trans most)]

theorem tieRange?_evenBag :
    (ofWords MatchSet.evenBag 0 true ["IN", "TA"]).tieRange? "IN" = some (1, 2) := by
  rw [tieRange?_ofWords MatchSet.evenBag 0 true (by decide) List.mem_cons_self]
  simp [MatchSet.likelihood_evenBag]

/-- The second of two words that tie, with a bound below all ranks, and a word that is not ranked. -/
theorem inRange_ofWords_tie :
    let o := ofWords MatchSet.evenBag 0 true ["IN", "TA"]
    "IN" ∈ o.words ∧ o.inRange "IN" (-3) 1 false = false ∧ o.inRange "IN" (-3) 1 true = true ∧
      "NO" ∉ o.words ∧ o.inRange "NO" (-3) 1 true = false := by
  intro o
  have listed : "IN" ∈ o.words :=
    (mem_words_ofWords_iff MatchSet.evenBag 0 true).mpr List.mem_cons_self
  have unlisted : "NO" ∉ o.words := by
    rw [mem_words_ofWords_iff]
    decide
  obtain ⟨rank, first, last, ranked, range, _, _, strict, lax⟩ :=
    (inRange_ofWords MatchSet.evenBag 0 true ["IN", "TA"] "IN" (-3) 1).1 listed
  obtain rfl : 2 = rank := Option.some.inj (MatchSet.rank?_byAlphagram.symm.trans ranked)
  obtain ⟨rfl, rfl⟩ : 1 = first ∧ 2 = last := by
    simpa using tieRange?_evenBag.symm.trans range
  refine ⟨listed, ?_, lax.mpr (Or.inl ⟨1, by decide, by decide, by decide, by decide⟩), unlisted,
    (inRange_ofWords MatchSet.evenBag 0 true ["IN", "TA"] "NO" (-3) 1).2 unlisted true⟩
  rw [← Bool.not_eq_true, strict]
  decide

/-- Each of two words that hold the ranks 1 and 2 together passes a lax check from 2 to 1, though no
rank lies between these bounds. -/
theorem not_inRange_inverted :
    let o := ofWords MatchSet.evenBag 0 true ["IN", "TA"]
    ¬(o.inRange "IN" 2 1 true = true ↔ ∃ first last tied : Nat,
      o.tieRange? "IN" = some (first, last) ∧ first ≤ tied ∧ tied ≤ last ∧
        (2 : Int) ≤ tied ∧ (tied : Int) ≤ 1) := by
  intro o claim
  have passes : o.inRange "IN" 2 1 true = true :=
    (inRange_of_tieRange tieRange?_evenBag).mpr (by decide)
  obtain ⟨_, _, tied, _, _, _, least, most⟩ := claim.mp passes
  omega

end WordFinder.ProbabilityOrder
