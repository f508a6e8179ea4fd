import Mathlib
import WordFinder.Proofs.Probability.Kept
import WordFinder.Proofs.Probability.Limit

/-!
# Limits by probability order

A limit keeps the words whose rank its range has, or one of whose ranks it has if it is lax. Limits
for the same number of blanks act as one: the rank of a word must be in the range of each strict limit,
and one rank that the word ties for must be in all ranges at once.
-/
set_option autoImplicit false

namespace WordFinder

def Condition.HasRank (c : Condition) (rank : Int) : Prop :=
  c.min.toInt ≤ rank ∧ rank ≤ c.max.toInt

instance (c : Condition) (rank : Int) : Decidable (c.HasRank rank) :=
  inferInstanceAs (Decidable (_ ∧ _))

namespace RankBounds

open ProbabilityOrder

def lastRank : Int := 0x7FFFFFFF

theorem admits_tighten (b : RankBounds) (c : Condition) (rank : Int) :
    (b.tighten c).Admits rank ↔ b.Admits rank ∧ (c.lax = false → c.HasRank rank) := by
  cases lax : c.lax <;> simp only [tighten, lax, Admits, Condition.HasRank] <;> grind

theorem admitsLax_tighten (b : RankBounds) (c : Condition) (rank : Int) :
    (b.tighten c).AdmitsLax rank ↔ b.AdmitsLax rank ∧ (c.lax = true → c.HasRank rank) := by
  cases lax : c.lax <;> simp only [tighten, lax, AdmitsLax, Condition.HasRank] <;> grind

theorem admits_foldl_tighten (limits : List Condition) (b : RankBounds) (rank : Int) :
    (limits.foldl tighten b).Admits rank ↔
      b.Admits rank ∧ ∀ c ∈ limits, c.lax = false → c.HasRank rank := by
  induction limits generalizing b with
  | nil => simp
  | cons c limits ih => rw [List.foldl_cons, ih, admits_tighten, List.forall_mem_cons, and_assoc]

theorem admitsLax_foldl_tighten (limits : List Condition) (b : RankBounds) (rank : Int) :
    (limits.foldl tighten b).AdmitsLax rank ↔
      b.AdmitsLax rank ∧ ∀ c ∈ limits, c.lax = true → c.HasRank rank := by
  induction limits generalizing b with
  | nil => simp
  | cons c limits ih => rw [List.foldl_cons, ih, admitsLax_tighten, List.forall_mem_cons, and_assoc]

/-- Limits for the same number of blanks keep the word at a place of an order. -/
def Keep (limits : List Condition) (ranked : List RankedWord) (i : Nat) : Prop :=
  (i + 1 : Int) ≤ lastRank ∧ (∀ c ∈ limits, c.lax = false → c.HasRank (i + 1)) ∧
    ∃ j : Nat, (ranked[j]?).map (·.draws) = (ranked[i]?).map (·.draws) ∧ (j + 1 : Int) ≤ lastRank ∧
      ∀ c ∈ limits, c.HasRank (j + 1)

theorem mem_kept_foldl_iff {ranked : List RankedWord} (descending : IsDescending ranked)
    (limits : List Condition) {r : RankedWord} :
    r ∈ (limits.foldl tighten {}).kept ranked ↔
      ∃ i : Nat, ranked[i]? = some r ∧ Keep limits ranked i := by
  have start (rank : Nat) : ({} : RankBounds).Admits (rank + 1) ↔ (rank + 1 : Int) ≤ lastRank := by
    simp only [Admits, lastRank]
    omega
  have startLax (rank : Nat) :
      ({} : RankBounds).AdmitsLax (rank + 1) ↔ (rank + 1 : Int) ≤ lastRank := by
    simp only [AdmitsLax, lastRank]
    omega
  rw [mem_kept_iff descending]
  simp only [admits_foldl_tighten, admitsLax_foldl_tighten, start, startLax]
  refine exists_congr fun i => and_congr_right fun place => ?_
  rw [Keep, place, and_assoc]
  refine and_congr_right fun _ => and_congr_right fun _ => exists_congr fun j => ?_
  constructor
  · intro holds
    obtain ⟨t, placeT, tie, ⟨near, strict⟩, _, lax⟩ := holds
    refine ⟨by rw [placeT, Option.map_some, Option.map_some, tie], near, fun c member => ?_⟩
    cases kind : c.lax with
    | false => exact strict c member kind
    | true => exact lax c member kind
  · intro holds
    obtain ⟨tie, near, all⟩ := holds
    obtain ⟨t, placeT, tie⟩ := Option.map_eq_some_iff.mp tie
    exact ⟨t, placeT, tie, ⟨near, fun c member _ => all c member⟩, near,
      fun c member _ => all c member⟩

end RankBounds

namespace MatchSet

open ProbabilityOrder RankBounds

theorem mem_keptBy_iff {words : List String} (nodup : words.Nodup) (bag : TileBag)
    (byAlphagram : Bool) (blanks : Int32) (limits : List Condition) {word : String} :
    word ∈ keptBy bag byAlphagram words (blanks, limits.foldl tighten {}) ↔
      ∃ i : Nat, (ofWords bag blanks byAlphagram words).rank? word = some (i + 1) ∧
        Keep limits (ofWords bag blanks byAlphagram words).ranked i := by
  have nodupOrder := (words_ofWords_perm bag blanks byAlphagram nodup).nodup_iff.mpr nodup
  have descending := isDescending_ofWords bag blanks byAlphagram words
  simp only [keptBy, List.mem_map, mem_kept_foldl_iff descending, rank?_eq_some_iff nodupOrder,
    Nat.add_sub_cancel, Nat.succ_pos, true_and, ProbabilityOrder.words, List.getElem?_map,
    Option.map_eq_some_iff]
  constructor
  · intro holds
    obtain ⟨r, ⟨i, place, kept⟩, same⟩ := holds
    exact ⟨i, ⟨r, place, same⟩, kept⟩
  · intro holds
    obtain ⟨i, ⟨r, place, same⟩, kept⟩ := holds
    exact ⟨r, ⟨i, place, kept⟩, same⟩

theorem exists_place_of_rank {words : List String} (nodup : words.Nodup) {bag : TileBag}
    {byAlphagram : Bool} {blanks : Int32} {word : String} {i : Nat}
    (ranked : (ofWords bag blanks byAlphagram words).rank? word = some (i + 1)) :
    ∃ r, (ofWords bag blanks byAlphagram words).ranked[i]? = some r ∧ r.word = word := by
  have nodupOrder := (words_ofWords_perm bag blanks byAlphagram nodup).nodup_iff.mpr nodup
  obtain ⟨_, place⟩ := (rank?_eq_some_iff nodupOrder).mp ranked
  rwa [Nat.add_sub_cancel, ProbabilityOrder.words, List.getElem?_map, Option.map_eq_some_iff] at place

variable (s : MatchSet) (bag : TileBag) {c : Condition} {word : String}

theorem mem_words_limit_iff (conditions : List Condition) :
    word ∈ (s.limitByProbabilityOrder conditions bag).words ↔ word ∈ s.words ∧
      ∀ bounds ∈ rankBounds (conditions.filter (·.kind == .probabilityOrderLimit)),
        word ∈ keptBy bag (!(conditions.filter (·.kind == .probabilityOrderLimit)).any (·.legacy))
          s.words bounds := by
  rw [words_limitByProbabilityOrder, List.mem_filter, List.all_eq_true]
  simp only [List.contains_iff_mem]

theorem rankBounds_single (c : Condition) :
    rankBounds [c] = [(c.blanks, [c].foldl tighten {})] := by
  simp [rankBounds, List.eraseDups_cons]

theorem mem_limit_iff (limit : c.kind = .probabilityOrderLimit) :
    word ∈ (s.limitByProbabilityOrder [c] bag).words ↔ word ∈ s.words ∧
      ∃ i : Nat, (ofWords bag c.blanks (!c.legacy) s.words).rank? word = some (i + 1) ∧
        Keep [c] (ofWords bag c.blanks (!c.legacy) s.words).ranked i := by
  have only : [c].filter (·.kind == .probabilityOrderLimit) = [c] := by simp [limit]
  rw [mem_words_limit_iff, only, rankBounds_single]
  simp only [List.mem_singleton, forall_eq, List.any_cons, List.any_nil, Bool.or_false,
    mem_keptBy_iff s.nodup_words]

/-- A word has a rank in the range of a strict limit if its own is; a lax limit also takes the ranks
that it ties for. -/
theorem keep_iff_rank {o : ProbabilityOrder} (descending : IsDescending o.ranked)
    (nodup : o.words.Nodup) (few : o.ranked.length < 2 ^ 31) {i : Nat} {r : RankedWord}
    (place : o.ranked[i]? = some r) :
    Keep [c] o.ranked i ↔ ∃ rank : Nat, c.HasRank rank ∧
      if c.lax then ∃ first last, o.tieRange? r.word = some (first, last) ∧ first ≤ rank ∧ rank ≤ last
      else i + 1 = rank := by
  have near {j : Nat} {t : RankedWord} (there : o.ranked[j]? = some t) : (j + 1 : Int) ≤ lastRank := by
    have within := (List.getElem?_eq_some_iff.mp there).1
    simp only [lastRank]
    omega
  simp only [Keep, List.forall_mem_cons, List.not_mem_nil, false_implies, implies_true, and_true,
    place, Option.map_some]
  cases lax : c.lax with
  | false =>
    simp only [Bool.false_eq_true, if_false, exists_eq_right', true_implies]
    constructor
    · exact fun holds => holds.2.1
    · exact fun inside => ⟨near place, inside, i, by rw [place, Option.map_some], near place, inside⟩
  | true =>
    obtain ⟨first, last, range, positive, ties⟩ := exists_tieRange descending nodup place
    simp only [Bool.true_eq_false, false_implies, true_and, if_true, range, Option.some.injEq,
      Prod.mk.injEq]
    constructor
    · intro holds
      obtain ⟨_, j, tie, _, inside⟩ := holds
      obtain ⟨t, placeT, same⟩ := Option.map_eq_some_iff.mp tie
      obtain ⟨low, high⟩ := (ties j).mpr ⟨t, placeT, same⟩
      exact ⟨j + 1, inside, first, last, ⟨rfl, rfl⟩, low, high⟩
    · intro holds
      obtain ⟨rank, inside, _, _, ⟨rfl, rfl⟩, low, high⟩ := holds
      obtain ⟨j, rfl⟩ : ∃ j, rank = j + 1 := ⟨rank - 1, by omega⟩
      obtain ⟨t, placeT, same⟩ := (ties j).mp ⟨low, high⟩
      exact ⟨near place, j, by rw [placeT, Option.map_some, same], near placeT, inside⟩

theorem mem_oneLimit_iff (limit : c.kind = .probabilityOrderLimit) (few : s.size < 2 ^ 31)
    (member : word ∈ s.words) :
    word ∈ (s.limitByProbabilityOrder [c] bag).words ↔ ∃ rank : Nat, c.HasRank rank ∧
      if c.lax then
        ∃ first last, (ofWords bag c.blanks (!c.legacy) s.words).tieRange? word =
          some (first, last) ∧ first ≤ rank ∧ rank ≤ last
      else (ofWords bag c.blanks (!c.legacy) s.words).rank? word = some rank := by
  have perm := words_ofWords_perm bag c.blanks (!c.legacy) s.nodup_words
  have nodup := perm.nodup_iff.mpr s.nodup_words
  have short : (ofWords bag c.blanks (!c.legacy) s.words).ranked.length < 2 ^ 31 := by
    rw [← s.length_words, ← perm.length_eq, ProbabilityOrder.words, List.length_map] at few
    exact few
  obtain ⟨rank, ranked⟩ := exists_rank_of_mem nodup (perm.mem_iff.mpr member)
  obtain ⟨i, rfl⟩ : ∃ i, rank = i + 1 := ⟨rank - 1, by have := rank_bounds nodup ranked; omega⟩
  obtain ⟨r, place, same⟩ := exists_place_of_rank s.nodup_words ranked
  have keeps := keep_iff_rank (c := c) (isDescending_ofWords ..) nodup short place
  rw [same] at keeps
  rw [s.mem_limit_iff bag limit]
  simp only [member, true_and, ranked, Option.some.injEq, Nat.succ_inj, exists_eq_left', keeps]

theorem spelling?_limit_iff (conditions : List Condition) {marked : String} :
    (s.limitByProbabilityOrder conditions bag).spelling? word = some marked ↔
      s.spelling? word = some marked ∧ word ∈ (s.limitByProbabilityOrder conditions bag).words := by
  rw [s.limitByProbabilityOrder_alike, spelling?_filter, mem_words_iff]
  split
  · next kept => simp [kept]
  · next dropped => simp [dropped]

/-- A limit keeps the words that have a rank in its range, among the words of the set, with their
spellings; a lax limit also counts the ranks that a word ties for. -/
theorem spelling?_oneLimit (limit : c.kind = .probabilityOrderLimit) (few : s.size < 2 ^ 31)
    (word marked : String) :
    let order := ProbabilityOrder.ofWords bag c.blanks (!c.legacy) s.words
    (s.limitByProbabilityOrder [c] bag).spelling? word = some marked ↔
      s.spelling? word = some marked ∧ ∃ rank : Nat, c.HasRank rank ∧
        if c.lax then
          ∃ first last, order.tieRange? word = some (first, last) ∧ first ≤ rank ∧ rank ≤ last
        else order.rank? word = some rank := by
  intro order
  rw [spelling?_limit_iff]
  refine and_congr_right fun spelled => s.mem_oneLimit_iff bag limit few ?_
  rw [mem_words_iff, contains_eq_isSome, spelled]
  rfl

def evenBag : TileBag := ⟨[('A', 1), ('I', 1), ('N', 1), ('T', 1)]⟩

/-- Bounds beyond the ranks of the set, and a word that is marked. -/
theorem spelling?_oneLimit_lax :
    let s := MatchSet.ofSpellings ["IN", "tA"]
    let c : Condition := { kind := .probabilityOrderLimit, min := 2, max := 5, lax := true }
    let order := ProbabilityOrder.ofWords evenBag c.blanks (!c.legacy) s.words
    s.size < 2 ^ 31 ∧ ((s.limitByProbabilityOrder [c] evenBag).spelling? "TA" = some "tA" ↔
      s.spelling? "TA" = some "tA" ∧ ∃ rank : Nat, c.HasRank rank ∧
        if c.lax then
          ∃ first last, order.tieRange? "TA" = some (first, last) ∧ first ≤ rank ∧ rank ≤ last
        else order.rank? "TA" = some rank) := by
  have few : (MatchSet.ofSpellings ["IN", "tA"]).size < 2 ^ 31 := by decide +kernel
  exact ⟨few, spelling?_oneLimit _ _ rfl few _ _⟩

end MatchSet

end WordFinder
