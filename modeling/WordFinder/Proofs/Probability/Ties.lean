import Mathlib
import WordFinder.Proofs.Probability.Order

/-!
# Ties in a probability order

An order lists its words by descending number of draws, so words that tie stand together. The tie
range of a word is the stretch of ranks whose words are as likely as the word. How ties are broken
decides the ranks within the stretch, not the stretch.
-/
set_option autoImplicit false

namespace WordFinder

/-! ## Tests that hold of a first part of a list -/

section FirstPart

variable {α : Type} {l : List α} {test : α → Bool}

theorem length_takeWhile_eq_countP (first : l.Pairwise fun a b => test b = true → test a = true) :
    (l.takeWhile test).length = l.countP test := by
  induction l with
  | nil => rfl
  | cons a l ih =>
    obtain ⟨before, others⟩ := List.pairwise_cons.mp first
    by_cases holds : test a = true
    · rw [List.takeWhile_cons_of_pos holds, List.length_cons, ih others,
        List.countP_cons_of_pos holds]
    · have never : l.countP test = 0 :=
        List.countP_eq_zero.mpr fun b member later => holds (before b member later)
      rw [List.takeWhile_cons_of_neg holds, List.countP_cons_of_neg holds, never, List.length_nil]

theorem lt_length_takeWhile_iff (first : l.Pairwise fun a b => test b = true → test a = true)
    {i : Nat} {a : α} (here : l[i]? = some a) : i < (l.takeWhile test).length ↔ test a = true := by
  induction l generalizing i with
  | nil => simp at here
  | cons b l ih =>
    obtain ⟨before, others⟩ := List.pairwise_cons.mp first
    by_cases holds : test b = true
    · rw [List.takeWhile_cons_of_pos holds, List.length_cons]
      cases i with
      | zero =>
        rw [List.getElem?_cons_zero, Option.some.injEq] at here
        simp [← here, holds]
      | succ i =>
        rw [List.getElem?_cons_succ] at here
        rw [Nat.succ_lt_succ_iff, ih others here]
    · rw [List.takeWhile_cons_of_neg holds, List.length_nil]
      have refused : test a ≠ true := by
        rcases List.mem_cons.mp (List.mem_of_getElem? here) with rfl | member
        · exact holds
        · exact fun later => holds (before a member later)
      simp [refused]

end FirstPart

/-! ## The order of ranked words -/

/-- The number of ways to draw a word, without its fraction. -/
def TileBag.likelihood (bag : TileBag) (blanks : Int32) (word : String) : UInt64 :=
  (bag.combinations word blanks).toUInt64

namespace RankedWord

variable {a b c : RankedWord}

theorem le_iff : a.le b = true ↔
    b.draws < a.draws ∨ (a.draws = b.draws ∧
      (a.tieBreak < b.tieBreak ∨ (a.tieBreak = b.tieBreak ∧ a.word ≤ b.word))) := by
  simp [le]

theorem le_trans (first : a.le b = true) (second : b.le c = true) : a.le c = true := by
  rw [le_iff] at *
  grind

theorem le_total (a b : RankedWord) : (a.le b || b.le a) = true := by
  rw [Bool.or_eq_true, le_iff, le_iff]
  grind

def ofWord (bag : TileBag) (blanks : Int32) (byAlphagram : Bool) (word : String) : RankedWord :=
  ⟨bag.likelihood blanks word, if byAlphagram then alphagram word else "", word⟩

end RankedWord

namespace ProbabilityOrder

def IsDescending (ranked : List RankedWord) : Prop :=
  ranked.Pairwise fun a b => b.draws ≤ a.draws

theorem IsDescending.more_first {ranked : List RankedWord} (descending : IsDescending ranked)
    (draws : UInt64) :
    ranked.Pairwise fun a b => decide (b.draws > draws) = true → decide (a.draws > draws) = true :=
  descending.imp fun less holds =>
    decide_eq_true (UInt64.lt_of_lt_of_le (of_decide_eq_true holds) less)

theorem IsDescending.enough_first {ranked : List RankedWord} (descending : IsDescending ranked)
    (draws : UInt64) :
    ranked.Pairwise fun a b => decide (b.draws ≥ draws) = true → decide (a.draws ≥ draws) = true :=
  descending.imp fun less holds =>
    decide_eq_true (UInt64.le_trans (of_decide_eq_true holds) less)

theorem IsDescending.draws_le {ranked : List RankedWord} (descending : IsDescending ranked)
    {i j : Nat} {a b : RankedWord} (first : ranked[i]? = some a) (second : ranked[j]? = some b)
    (before : i ≤ j) : b.draws ≤ a.draws := by
  rcases Nat.eq_or_lt_of_le before with rfl | less
  · rw [first, Option.some.injEq] at second
    exact UInt64.le_of_eq (congrArg _ second.symm)
  · obtain ⟨iLess, rfl⟩ := List.getElem?_eq_some_iff.mp first
    obtain ⟨jLess, rfl⟩ := List.getElem?_eq_some_iff.mp second
    exact List.pairwise_iff_getElem.mp descending i j iLess jLess less

theorem IsDescending.tie_between {ranked : List RankedWord} (descending : IsDescending ranked)
    {x y m : Nat} {draws : UInt64} (first : (ranked[x]?).map (·.draws) = some draws)
    (second : (ranked[y]?).map (·.draws) = some draws) (low : min x y ≤ m) (high : m ≤ max x y) :
    (ranked[m]?).map (·.draws) = some draws := by
  wlog ordered : x ≤ y generalizing x y
  · exact this second first (by omega) (by omega) (by omega)
  obtain ⟨a, placeA, rfl⟩ := Option.map_eq_some_iff.mp first
  obtain ⟨b, placeB, same⟩ := Option.map_eq_some_iff.mp second
  have within := (List.getElem?_eq_some_iff.mp placeB).1
  have place : ranked[m]? = some ranked[m] := List.getElem?_eq_getElem (by omega)
  rw [place, Option.map_some]
  have atMost := descending.draws_le placeA place (by omega)
  have atLeast := descending.draws_le place placeB (by omega)
  exact congrArg some (UInt64.le_antisymm atMost (same ▸ atLeast))

theorem dropRepeats_sublist (ranked : List RankedWord) : (dropRepeats ranked).Sublist ranked := by
  induction ranked using dropRepeats.induct with
  | case1 a b ranked same ih =>
    rw [dropRepeats, if_pos same]
    exact ih.trans ((List.sublist_cons_self b ranked).cons_cons a)
  | case2 a b ranked differ ih =>
    rw [dropRepeats, if_neg differ]
    exact ih.cons_cons a
  | case3 ranked short =>
    rw [dropRepeats.eq_2 ranked short]

section OfWords

variable (bag : TileBag) (blanks : Int32) (byAlphagram : Bool)

theorem ranked_ofWords (words : List String) : (ofWords bag blanks byAlphagram words).ranked =
    dropRepeats ((words.map (.ofWord bag blanks byAlphagram)).mergeSort RankedWord.le) :=
  rfl

theorem isDescending_ofWords (words : List String) :
    IsDescending (ofWords bag blanks byAlphagram words).ranked := by
  have sorted : ((words.map (RankedWord.ofWord bag blanks byAlphagram)).mergeSort
      RankedWord.le).Pairwise fun a b => a.le b = true := by
    apply List.pairwise_mergeSort
    · intro a b c
      exact RankedWord.le_trans
    · exact RankedWord.le_total
  refine (sorted.sublist (dropRepeats_sublist _)).imp fun {a b} earlier => ?_
  rcases RankedWord.le_iff.mp earlier with less | ⟨same, _⟩
  · exact UInt64.le_of_lt less
  · exact UInt64.le_of_eq same.symm

theorem eq_ofWord_of_mem {words : List String} {r : RankedWord}
    (member : r ∈ (ofWords bag blanks byAlphagram words).ranked) :
    r = .ofWord bag blanks byAlphagram r.word := by
  have sorted := (dropRepeats_sublist _).subset member
  rw [List.mem_mergeSort, List.mem_map] at sorted
  obtain ⟨word, _, rfl⟩ := sorted
  rfl

end OfWords

/-! ## Tie ranges -/

section TieRanges

variable {o : ProbabilityOrder} {r : RankedWord} {i : Nat}

theorem find?_of_getElem? (nodup : o.words.Nodup) (here : o.ranked[i]? = some r) :
    o.find? r.word = some r := by
  have member := List.mem_of_getElem? here
  have found : (o.find? r.word).isSome = true :=
    List.find?_isSome.mpr ⟨r, member, beq_self_eq_true _⟩
  obtain ⟨s, isFound⟩ := Option.isSome_iff_exists.mp found
  have same : s.word = r.word := by simpa using List.find?_some isFound
  rw [isFound, List.inj_on_of_nodup_map nodup (List.mem_of_find?_eq_some isFound) member same]

theorem exists_tieRange (descending : IsDescending o.ranked) (nodup : o.words.Nodup)
    (here : o.ranked[i]? = some r) :
    ∃ first last, o.tieRange? r.word = some (first, last) ∧ 0 < first ∧ ∀ j : Nat,
      first ≤ j + 1 ∧ j + 1 ≤ last ↔ ∃ s, o.ranked[j]? = some s ∧ s.draws = r.draws := by
  refine ⟨_, _, by rw [tieRange?, find?_of_getElem? nodup here]; rfl, Nat.succ_pos _, fun j => ?_⟩
  cases found : o.ranked[j]? with
  | none =>
    have beyond := List.getElem?_eq_none_iff.mp found
    have := (o.ranked.takeWhile_sublist fun s => decide (s.draws ≥ r.draws)).length_le
    simp only [reduceCtorEq, false_and, exists_false, iff_false]
    omega
  | some s =>
    have upTo := lt_length_takeWhile_iff (descending.more_first r.draws) found
    have within := lt_length_takeWhile_iff (descending.enough_first r.draws) found
    rw [decide_eq_true_eq] at upTo within
    simp only [Option.some.injEq, exists_eq_left', Nat.succ_le_succ_iff]
    rw [← Nat.not_lt, upTo, Nat.succ_le_iff, within]
    exact ⟨fun holds => UInt64.le_antisymm (UInt64.not_lt.mp holds.1) holds.2,
      fun same => ⟨UInt64.not_lt.mpr (UInt64.le_of_eq same), UInt64.le_of_eq same.symm⟩⟩

/-- A tie range is told by how many words are likelier than a word and how many are as likely at
least, so it does not depend on how ties are broken. -/
theorem tieRange?_ofWords (bag : TileBag) (blanks : Int32) (byAlphagram : Bool)
    {words : List String} (nodup : words.Nodup) {word : String} (member : word ∈ words) :
    (ofWords bag blanks byAlphagram words).tieRange? word =
      some (words.countP (fun other => bag.likelihood blanks other > bag.likelihood blanks word) + 1,
        words.countP fun other => bag.likelihood blanks other ≥ bag.likelihood blanks word) := by
  have perm := words_ofWords_perm bag blanks byAlphagram nodup
  obtain ⟨r, listed, rfl⟩ := List.mem_map.mp (perm.mem_iff.mpr member)
  obtain ⟨i, here⟩ := List.mem_iff_getElem?.mp listed
  have descending := isDescending_ofWords bag blanks byAlphagram words
  have likely {s : RankedWord} (also : s ∈ (ofWords bag blanks byAlphagram words).ranked) :
      s.draws = bag.likelihood blanks s.word :=
    congrArg RankedWord.draws (eq_ofWord_of_mem bag blanks byAlphagram also)
  have count (test : UInt64 → Bool) :
      (ofWords bag blanks byAlphagram words).ranked.countP (fun s => test s.draws) =
        words.countP fun other => test (bag.likelihood blanks other) := by
    rw [← perm.countP_eq, ProbabilityOrder.words, List.countP_map]
    exact List.countP_congr fun s also => by rw [likely also, Function.comp_apply]
  rw [tieRange?, find?_of_getElem? (perm.nodup_iff.mpr nodup) here, Option.map_some,
    length_takeWhile_eq_countP (descending.more_first r.draws),
    length_takeWhile_eq_countP (descending.enough_first r.draws), count (· > r.draws),
    count (· ≥ r.draws), likely listed]

end TieRanges

end ProbabilityOrder

end WordFinder
