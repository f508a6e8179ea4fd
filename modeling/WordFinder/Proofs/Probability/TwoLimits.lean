import Mathlib
import WordFinder.Proofs.Probability.RankLimits

/-!
# Two limits by probability order

Two limits keep together what each of them keeps, as long as they break ties alike, unless one of
them is lax, they are for the same number of blanks and no rank is in both ranges.
-/
set_option autoImplicit false

namespace WordFinder

/-- The limit with ties broken by spelling alone, or not. -/
def Condition.withLegacy (c : Condition) (legacy : Bool) : Condition :=
  { c with legacy }

namespace Condition

variable (c : Condition) (legacy : Bool) (rank : Int)

theorem blanks_withLegacy : (c.withLegacy legacy).blanks = c.blanks := rfl

theorem lax_withLegacy : (c.withLegacy legacy).lax = c.lax := rfl

theorem legacy_withLegacy : (c.withLegacy legacy).legacy = legacy := rfl

theorem hasRank_withLegacy : (c.withLegacy legacy).HasRank rank ↔ c.HasRank rank := Iff.rfl

end Condition

namespace RankBounds

open ProbabilityOrder

theorem keep_withLegacy (c : Condition) (legacy : Bool) (ranked : List RankedWord) (i : Nat) :
    Keep [c.withLegacy legacy] ranked i ↔ Keep [c] ranked i := by
  simp [Keep, Condition.hasRank_withLegacy, Condition.lax_withLegacy]

theorem exists_between {c d : Condition} {rank x y : Int} (first : c.HasRank rank)
    (second : d.HasRank rank) (one : c.HasRank x) (other : d.HasRank y) :
    ∃ z, Min.min x y ≤ z ∧ z ≤ Max.max x y ∧ c.HasRank z ∧ d.HasRank z := by
  simp only [Condition.HasRank] at *
  exact ⟨Max.max (Min.min x y) (Min.min rank (Max.max x y)), by omega, by omega, by omega, by omega⟩

theorem keep_pair_iff {ranked : List RankedWord} (descending : IsDescending ranked)
    {c d : Condition} {i : Nat} {r : RankedWord} (place : ranked[i]? = some r) :
    Keep [c, d] ranked i ↔ Keep [c] ranked i ∧ Keep [d] ranked i ∧
      (c.lax = true ∨ d.lax = true → ∃ rank, c.HasRank rank ∧ d.HasRank rank) := by
  simp only [Keep, List.forall_mem_cons, List.not_mem_nil, false_implies, implies_true, and_true,
    place, Option.map_some]
  constructor
  · intro holds
    obtain ⟨near, ⟨strictC, strictD⟩, j, tie, nearT, hasC, hasD⟩ := holds
    exact ⟨⟨near, strictC, j, tie, nearT, hasC⟩, ⟨near, strictD, j, tie, nearT, hasD⟩,
      fun _ => ⟨_, hasC, hasD⟩⟩
  · intro holds
    obtain ⟨⟨near, strictC, j, tieJ, nearJ, hasC⟩, ⟨_, strictD, k, tieK, nearK, hasD⟩, shared⟩ := holds
    have common : ∃ rank, c.HasRank rank ∧ d.HasRank rank := by
      cases laxC : c.lax with
      | true => exact shared (Or.inl laxC)
      | false =>
        cases laxD : d.lax with
        | true => exact shared (Or.inr laxD)
        | false => exact ⟨_, strictC laxC, strictD laxD⟩
    obtain ⟨rank, first, second⟩ := common
    obtain ⟨z, low, high, inC, inD⟩ := exists_between first second hasC hasD
    obtain ⟨m, rfl⟩ : ∃ m : Nat, z = m + 1 := ⟨(z - 1).toNat, by omega⟩
    have tie := descending.tie_between tieJ tieK (m := m) (by omega) (by omega)
    exact ⟨near, ⟨strictC, strictD⟩, m, tie, by omega, inC, inD⟩

end RankBounds

namespace MatchSet

open ProbabilityOrder RankBounds

variable (s : MatchSet) (bag : TileBag) {c d : Condition} {word : String}

theorem rankBounds_pair_of_eq (same : c.blanks = d.blanks) :
    rankBounds [c, d] = [(c.blanks, [c, d].foldl tighten {})] := by
  simp [rankBounds, List.eraseDups_cons, same]

theorem rankBounds_pair_of_ne (differ : c.blanks ≠ d.blanks) :
    rankBounds [c, d] = [(c.blanks, [c].foldl tighten {}), (d.blanks, [d].foldl tighten {})] := by
  simp [rankBounds, List.eraseDups_cons, differ, Ne.symm differ]

theorem mem_limit_pair_iff (first : c.kind = .probabilityOrderLimit)
    (second : d.kind = .probabilityOrderLimit) :
    word ∈ (s.limitByProbabilityOrder [c, d] bag).words ↔
      word ∈ (s.limitByProbabilityOrder [c.withLegacy (c.legacy || d.legacy)] bag).words ∧
        word ∈ (s.limitByProbabilityOrder [d.withLegacy (c.legacy || d.legacy)] bag).words ∧
          (c.blanks = d.blanks → c.lax = true ∨ d.lax = true →
            ∃ rank, c.HasRank rank ∧ d.HasRank rank) := by
  have both : [c, d].filter (·.kind == .probabilityOrderLimit) = [c, d] := by simp [first, second]
  rw [mem_words_limit_iff, both, mem_limit_iff s bag (c := c.withLegacy (c.legacy || d.legacy)) first,
    mem_limit_iff s bag (c := d.withLegacy (c.legacy || d.legacy)) second]
  simp only [keep_withLegacy, Condition.blanks_withLegacy, Condition.legacy_withLegacy,
    List.any_cons, List.any_nil, Bool.or_false]
  by_cases same : c.blanks = d.blanks
  · rw [rankBounds_pair_of_eq same]
    simp only [List.forall_mem_cons, List.not_mem_nil, false_implies, implies_true, and_true,
      mem_keptBy_iff s.nodup_words, same, true_implies]
    constructor
    · intro holds
      obtain ⟨member, i, ranked, keep⟩ := holds
      obtain ⟨r, place, _⟩ := exists_place_of_rank s.nodup_words ranked
      obtain ⟨keepC, keepD, shared⟩ :=
        (keep_pair_iff (isDescending_ofWords ..) place).mp keep
      exact ⟨⟨member, i, ranked, keepC⟩, ⟨member, i, ranked, keepD⟩, shared⟩
    · intro holds
      obtain ⟨⟨member, i, ranked, keepC⟩, ⟨_, k, rankedK, keepD⟩, shared⟩ := holds
      obtain ⟨r, place, _⟩ := exists_place_of_rank s.nodup_words ranked
      obtain rfl : i = k := by
        rw [ranked, Option.some.injEq] at rankedK
        exact Nat.succ.inj rankedK
      exact ⟨member, i, ranked, (keep_pair_iff (isDescending_ofWords ..) place).mpr
        ⟨keepC, keepD, shared⟩⟩
  · rw [rankBounds_pair_of_ne same]
    simp only [List.forall_mem_cons, List.not_mem_nil, false_implies, implies_true, and_true,
      mem_keptBy_iff s.nodup_words, same]
    constructor
    · intro holds
      obtain ⟨member, keptC, keptD⟩ := holds
      exact ⟨⟨member, keptC⟩, member, keptD⟩
    · intro holds
      obtain ⟨⟨member, keptC⟩, _, keptD⟩ := holds
      exact ⟨member, keptC, keptD⟩

theorem words_withLegacy_of_lax (limit : c.kind = .probabilityOrderLimit) (few : s.size < 2 ^ 31)
    (lax : c.lax = true) (legacy : Bool) :
    (s.limitByProbabilityOrder [c.withLegacy legacy] bag).words =
      (s.limitByProbabilityOrder [c] bag).words := by
  refine words_eq_of_contains fun word => ?_
  rw [← mem_words_iff, ← mem_words_iff]
  by_cases member : word ∈ s.words
  · rw [s.mem_oneLimit_iff bag (c := c.withLegacy legacy) limit few member,
      s.mem_oneLimit_iff bag limit few member]
    simp only [Condition.blanks_withLegacy, Condition.lax_withLegacy, Condition.hasRank_withLegacy,
      lax, if_true, tieRange?_ofWords bag c.blanks _ s.nodup_words member]
  · simp only [mem_words_limit_iff, member, false_and]

/-- Two limits keep together what each of them keeps, if both break ties as the two do together, unless
one of them is lax, they are for the same number of blanks and no rank is in both ranges. How ties are
broken does not matter to a lax limit. -/
theorem words_twoLimits (first : c.kind = .probabilityOrderLimit)
    (second : d.kind = .probabilityOrderLimit) :
    let legacy := c.legacy || d.legacy
    let alone (e : Condition) := (s.limitByProbabilityOrder [e] bag).words
    (∀ word, word ∈ (s.limitByProbabilityOrder [c, d] bag).words ↔
        word ∈ alone (c.withLegacy legacy) ∧ word ∈ alone (d.withLegacy legacy) ∧
          (c.blanks = d.blanks → c.lax = true ∨ d.lax = true →
            ∃ rank, c.HasRank rank ∧ d.HasRank rank)) ∧
      ∀ e ∈ [c, d], e.legacy = legacy ∨ (e.lax = true ∧ s.size < 2 ^ 31) →
        alone (e.withLegacy legacy) = alone e := by
  intro legacy alone
  refine ⟨fun word => s.mem_limit_pair_iff bag first second, fun e member alike => ?_⟩
  rcases alike with same | ⟨lax, few⟩
  · exact congrArg alone (by rw [← same]; rfl)
  · have limit : e.kind = .probabilityOrderLimit := by
      rcases List.mem_pair.mp member with rfl | rfl
      · exact first
      · exact second
    exact s.words_withLegacy_of_lax bag limit few lax legacy

theorem words_twoLimits_lax :
    let s := MatchSet.ofSpellings ["IN", "TA"]
    let c : Condition := { kind := .probabilityOrderLimit, min := 1, max := 1, lax := true }
    let d : Condition := { kind := .probabilityOrderLimit, min := 1, max := 2, legacy := true }
    let alone (e : Condition) := (s.limitByProbabilityOrder [e] evenBag).words
    (∀ word, word ∈ (s.limitByProbabilityOrder [c, d] evenBag).words ↔
        word ∈ alone (c.withLegacy true) ∧ word ∈ alone (d.withLegacy true) ∧
          (c.blanks = d.blanks → c.lax = true ∨ d.lax = true →
            ∃ rank, c.HasRank rank ∧ d.HasRank rank)) ∧
      ∀ e ∈ [c, d], e.legacy = true ∨ (e.lax = true ∧ s.size < 2 ^ 31) →
        alone (e.withLegacy true) = alone e :=
  words_twoLimits (MatchSet.ofSpellings ["IN", "TA"]) evenBag rfl rfl

theorem words_ofWords_pair (bag : TileBag) (blanks : Int32) (byAlphagram : Bool) {a b : String}
    (differ : a ≠ b) : (ofWords bag blanks byAlphagram [a, b]).words =
      if (RankedWord.ofWord bag blanks byAlphagram a).le (.ofWord bag blanks byAlphagram b) then [a, b]
      else [b, a] := by
  have sorted : [.ofWord bag blanks byAlphagram a, .ofWord bag blanks byAlphagram b].mergeSort
      RankedWord.le =
      if (RankedWord.ofWord bag blanks byAlphagram a).le (.ofWord bag blanks byAlphagram b) then
        [.ofWord bag blanks byAlphagram a, .ofWord bag blanks byAlphagram b]
      else [.ofWord bag blanks byAlphagram b, .ofWord bag blanks byAlphagram a] := by
    simp [List.mergeSort, List.cons_merge_cons]
  rw [ProbabilityOrder.words, ranked_ofWords, List.map_cons, List.map_cons, List.map_nil, sorted]
  split
  · simp [dropRepeats, RankedWord.ofWord, differ]
  · simp [dropRepeats, RankedWord.ofWord, Ne.symm differ]

theorem likelihood_evenBag : evenBag.likelihood 0 "TA" = evenBag.likelihood 0 "IN" := rfl

theorem rank?_bySpelling : (ofWords evenBag 0 false ["IN", "TA"]).rank? "IN" = some 1 := by
  have earlier : (RankedWord.ofWord evenBag 0 false "IN").le (.ofWord evenBag 0 false "TA") :=
    RankedWord.le_iff.mpr (Or.inr ⟨likelihood_evenBag.symm, Or.inr ⟨rfl, by decide⟩⟩)
  rw [rank?_eq_idxOf?, words_ofWords_pair evenBag 0 false (by decide), if_pos earlier]
  decide

theorem rank?_byAlphagram : (ofWords evenBag 0 true ["IN", "TA"]).rank? "IN" = some 2 := by
  have later : ¬(RankedWord.ofWord evenBag 0 true "IN").le (.ofWord evenBag 0 true "TA") := by
    have least : alphagram "TA" = "AT" := by cbv
    have most : alphagram "IN" = "IN" := by cbv
    rw [RankedWord.le_iff]
    simp only [RankedWord.ofWord, likelihood_evenBag, UInt64.lt_irrefl, if_true, least, most]
    decide
  rw [rank?_eq_idxOf?, words_ofWords_pair evenBag 0 true (by decide), if_neg later]
  decide

/-- Two lax limits keep nothing together where both words tie and each limit alone keeps both. A limit
that breaks ties by alphagram keeps another word alone than beside one that does not. -/
theorem not_words_twoLimits :
    let s := MatchSet.ofSpellings ["IN", "TA"]
    let kept (conditions : List Condition) := (s.limitByProbabilityOrder conditions evenBag).words
    let limit (rank : Int32) (lax legacy : Bool) : Condition :=
      { kind := .probabilityOrderLimit, min := rank, max := rank, lax, legacy }
    (¬∀ word, word ∈ kept [limit 1 true false, limit 2 true false] ↔
        word ∈ kept [limit 1 true false] ∧ word ∈ kept [limit 2 true false]) ∧
      ¬∀ word, word ∈ kept [limit 1 false true, limit 1 false false] ↔
        word ∈ kept [limit 1 false true] ∧ word ∈ kept [limit 1 false false] := by
  intro s kept limit
  have words : s.words = ["IN", "TA"] := by decide +kernel
  have few : s.size < 2 ^ 31 := by decide +kernel
  have member : "IN" ∈ s.words := by rw [words]; decide
  constructor
  · intro claim
    have tie : (ofWords evenBag 0 true s.words).tieRange? "IN" = some (1, 2) := by
      rw [tieRange?_ofWords evenBag 0 true s.nodup_words member, words]
      simp [likelihood_evenBag]
    have first : "IN" ∈ kept [limit 1 true false] :=
      (s.mem_oneLimit_iff evenBag rfl few member).mpr ⟨1, by decide, 1, 2, tie, by decide, by decide⟩
    have second : "IN" ∈ kept [limit 2 true false] :=
      (s.mem_oneLimit_iff evenBag rfl few member).mpr ⟨2, by decide, 1, 2, tie, by decide, by decide⟩
    have together := (claim "IN").mpr ⟨first, second⟩
    obtain ⟨_, _, shared⟩ := (s.mem_limit_pair_iff evenBag rfl rfl).mp together
    obtain ⟨rank, ⟨_, most⟩, ⟨least, _⟩⟩ := shared rfl (Or.inl rfl)
    have gap : (limit 1 true false).max.toInt < (limit 2 true false).min.toInt := by decide
    omega
  · intro claim
    have bySpelling : (ofWords evenBag 0 false s.words).rank? "IN" = some 1 :=
      words ▸ rank?_bySpelling
    have alone : "IN" ∈ kept [limit 1 false true] :=
      (s.mem_oneLimit_iff evenBag rfl few member).mpr ⟨1, by decide, bySpelling⟩
    have together : "IN" ∈ kept [limit 1 false true, limit 1 false false] :=
      (s.mem_limit_pair_iff evenBag rfl rfl).mpr ⟨alone, alone, fun _ lax => by simp [limit] at lax⟩
    obtain ⟨rank, ⟨_, most⟩, ranked⟩ :=
      (s.mem_oneLimit_iff evenBag rfl few member).mp ((claim "IN").mp together).2
    have byAlphagram : (ofWords evenBag 0 true s.words).rank? "IN" = some 2 :=
      words ▸ rank?_byAlphagram
    have second : rank = 2 := Option.some.inj (ranked.symm.trans byAlphagram)
    rw [second] at most
    exact absurd most (by decide)

end MatchSet

end WordFinder
