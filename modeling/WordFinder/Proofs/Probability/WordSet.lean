import Mathlib
import WordFinder.Proofs.Probability.TwoLimits

/-!
# The order of a set of words

An order depends on which words are ranked, not on where a list has them or how often. Repeats stand
together once the words are sorted, so dropping each word that follows itself leaves every word once.
The rank of a word is then told by how many words come before it, its tie range by how many words are
likelier and how many are at least as likely.
-/
set_option autoImplicit false

namespace WordFinder

/-! ## Places in a strictly sorted list -/

/-- In a list sorted by a strict order, an element stands after as many others as are before it. -/
theorem countP_eq_of_getElem? {α : Type} {before : α → α → Bool}
    (asymmetric : ∀ a b, before a b = true → before b a = false) {l : List α}
    (sorted : l.Pairwise fun a b => before a b = true) {i : Nat} {a : α} (here : l[i]? = some a) :
    l.countP (before · a) = i := by
  induction l generalizing i with
  | nil => simp at here
  | cons b l ih =>
    obtain ⟨first, others⟩ := List.pairwise_cons.mp sorted
    cases i with
    | zero =>
      obtain rfl : b = a := by simpa using here
      have irreflexive : before b b = false := by
        cases holds : before b b with
        | false => rfl
        | true => exact holds.symm.trans (asymmetric b b holds)
      rw [List.countP_eq_zero]
      intro c member
      rw [Bool.not_eq_true]
      rcases List.mem_cons.mp member with rfl | later
      · exact irreflexive
      · exact asymmetric b c (first c later)
    | succ i =>
      rw [List.getElem?_cons_succ] at here
      have earlier : before b a = true := first a (List.mem_of_getElem? here)
      rw [List.countP_cons_of_pos (p := (before · a)) earlier, ih others here]

/-! ## The order of two words -/

/-- Whether a word is ranked before another: it is likelier, or as likely and smaller by alphagram and
then spelling, or by spelling alone. -/
def TileBag.Precedes (bag : TileBag) (blanks : Int32) (byAlphagram : Bool) (word other : String) :
    Prop :=
  bag.likelihood blanks other < bag.likelihood blanks word ∨
    (bag.likelihood blanks word = bag.likelihood blanks other ∧
      if byAlphagram then
        alphagram word < alphagram other ∨ (alphagram word = alphagram other ∧ word < other)
      else word < other)

instance (bag : TileBag) (blanks : Int32) (byAlphagram : Bool) (word other : String) :
    Decidable (bag.Precedes blanks byAlphagram word other) :=
  inferInstanceAs (Decidable (_ ∨ _ ∧ ite _ _ _))

namespace RankedWord

variable {a b : RankedWord}

theorem le_antisymm (first : a.le b = true) (second : b.le a = true) : a = b := by
  rw [le_iff] at first second
  obtain ⟨draws, tieBreak, word⟩ := a
  obtain ⟨draws', tieBreak', word'⟩ := b
  simp only [mk.injEq]
  grind

/-- Whether a word stands before another in an order, in which no word stands twice. -/
def lt (a b : RankedWord) : Bool :=
  a.le b && a.word != b.word

theorem lt_iff : a.lt b = true ↔ a.le b = true ∧ a.word ≠ b.word := by
  rw [lt, Bool.and_eq_true, bne_iff_ne]

theorem lt_asymm (first : a.lt b = true) : b.lt a = false := by
  obtain ⟨less, differ⟩ := lt_iff.mp first
  rw [← Bool.not_eq_true, lt_iff]
  intro holds
  exact differ (congrArg word (le_antisymm less holds.1))

theorem lt_ofWord_iff (bag : TileBag) (blanks : Int32) (byAlphagram : Bool) (word other : String) :
    (ofWord bag blanks byAlphagram word).lt (ofWord bag blanks byAlphagram other) = true ↔
      bag.Precedes blanks byAlphagram word other := by
  rw [lt_iff, le_iff, TileBag.Precedes]
  cases byAlphagram <;> simp only [ofWord] <;> grind

end RankedWord

namespace ProbabilityOrder

/-! ## Dropping repeats -/

/-- Ranked words that are the same word do not differ otherwise. -/
def AreToldByWord (ranked : List RankedWord) : Prop :=
  ∀ a ∈ ranked, ∀ b ∈ ranked, a.word = b.word → a = b

section Repeats

variable {a b : RankedWord} {ranked : List RankedWord}

theorem AreToldByWord.tail (told : AreToldByWord (a :: ranked)) : AreToldByWord ranked :=
  fun c memberC d memberD =>
    told c (List.mem_cons_of_mem _ memberC) d (List.mem_cons_of_mem _ memberD)

theorem AreToldByWord.eq_of_mem (told : AreToldByWord (a :: ranked)) (member : b ∈ ranked)
    (same : a.word = b.word) : a = b :=
  told a List.mem_cons_self b (List.mem_cons_of_mem _ member) same

theorem mem_dropRepeats_iff (told : AreToldByWord ranked) {r : RankedWord} :
    r ∈ dropRepeats ranked ↔ r ∈ ranked := by
  induction ranked using dropRepeats.induct with
  | case1 a b ranked same ih =>
    obtain rfl : a = b := told.eq_of_mem List.mem_cons_self same
    rw [dropRepeats, if_pos rfl, ih told.tail]
    simp
  | case2 a b ranked differ ih =>
    rw [dropRepeats, if_neg differ, List.mem_cons, ih told.tail, ← List.mem_cons]
  | case3 ranked short => rw [dropRepeats.eq_2 ranked short]

/-- Equal words stand together in a sorted list, so no word is left twice. -/
theorem pairwise_dropRepeats (told : AreToldByWord ranked)
    (sorted : ranked.Pairwise fun a b => a.le b = true) :
    (dropRepeats ranked).Pairwise fun a b => a.lt b = true := by
  induction ranked using dropRepeats.induct with
  | case1 a b ranked same ih =>
    obtain rfl : a = b := told.eq_of_mem List.mem_cons_self same
    rw [dropRepeats, if_pos rfl]
    exact ih told.tail sorted.tail
  | case2 a b ranked differ ih =>
    rw [dropRepeats, if_neg differ, List.pairwise_cons]
    refine ⟨fun c later => ?_, ih told.tail sorted.tail⟩
    have member : c ∈ b :: ranked := (dropRepeats_sublist _).subset later
    obtain ⟨first, others⟩ := List.pairwise_cons.mp sorted
    refine RankedWord.lt_iff.mpr ⟨first c member, fun same => ?_⟩
    obtain rfl : a = c := told.eq_of_mem member same
    -- With `a` on either side of `b`, the two would have to be equal.
    rcases List.mem_cons.mp member with rfl | beyond
    · exact differ rfl
    · have between := RankedWord.le_antisymm (first b List.mem_cons_self)
        ((List.pairwise_cons.mp others).1 a beyond)
      exact differ (congrArg RankedWord.word between)
  | case3 ranked short =>
    rw [dropRepeats.eq_2 ranked short]
    rcases ranked with _ | ⟨a, _ | ⟨b, ranked⟩⟩
    · exact List.Pairwise.nil
    · exact List.pairwise_singleton _ a
    · exact absurd rfl (short a b ranked)

end Repeats

/-! ## Orders of lists with the same words -/

section OfWords

variable (bag : TileBag) (blanks : Int32) (byAlphagram : Bool) {words : List String}

theorem areToldByWord_mergeSort (words : List String) :
    AreToldByWord ((words.map (.ofWord bag blanks byAlphagram)).mergeSort RankedWord.le) := by
  intro a memberA b memberB same
  rw [List.mem_mergeSort, List.mem_map] at memberA memberB
  obtain ⟨word, _, rfl⟩ := memberA
  obtain ⟨other, _, rfl⟩ := memberB
  exact congrArg (RankedWord.ofWord bag blanks byAlphagram) same

theorem mem_ranked_ofWords_iff {r : RankedWord} :
    r ∈ (ofWords bag blanks byAlphagram words).ranked ↔
      ∃ word ∈ words, .ofWord bag blanks byAlphagram word = r := by
  rw [ranked_ofWords, mem_dropRepeats_iff (areToldByWord_mergeSort bag blanks byAlphagram words),
    List.mem_mergeSort, List.mem_map]

theorem pairwise_ranked_ofWords (words : List String) :
    (ofWords bag blanks byAlphagram words).ranked.Pairwise fun a b => a.lt b = true := by
  rw [ranked_ofWords]
  apply pairwise_dropRepeats (areToldByWord_mergeSort bag blanks byAlphagram words)
  apply List.pairwise_mergeSort
  · intro a b c
    exact RankedWord.le_trans
  · exact RankedWord.le_total

theorem mem_words_ofWords_iff {word : String} :
    word ∈ (ofWords bag blanks byAlphagram words).words ↔ word ∈ words := by
  rw [ProbabilityOrder.words, List.mem_map]
  constructor
  · intro holds
    obtain ⟨r, listed, rfl⟩ := holds
    obtain ⟨word, member, rfl⟩ := (mem_ranked_ofWords_iff bag blanks byAlphagram).mp listed
    exact member
  · intro member
    exact ⟨_, (mem_ranked_ofWords_iff bag blanks byAlphagram).mpr ⟨word, member, rfl⟩, rfl⟩

theorem nodup_words_ofWords (words : List String) :
    (ofWords bag blanks byAlphagram words).words.Nodup := by
  rw [ProbabilityOrder.words, List.Nodup, List.pairwise_map]
  exact (pairwise_ranked_ofWords bag blanks byAlphagram words).imp fun before =>
    (RankedWord.lt_iff.mp before).2

theorem ofWords_congr {others : List String} (same : ∀ word, word ∈ others ↔ word ∈ words) :
    ofWords bag blanks byAlphagram others = ofWords bag blanks byAlphagram words := by
  have nodup (list : List String) : (ofWords bag blanks byAlphagram list).ranked.Nodup :=
    List.Nodup.of_map _ (nodup_words_ofWords bag blanks byAlphagram list)
  have perm : (ofWords bag blanks byAlphagram others).ranked.Perm
      (ofWords bag blanks byAlphagram words).ranked := by
    refine (List.perm_ext_iff_of_nodup (nodup others) (nodup words)).mpr fun r => ?_
    simp only [mem_ranked_ofWords_iff, same]
  rw [ProbabilityOrder.mk.injEq]
  exact perm.eq_of_pairwise
    (fun a b _ _ before after => absurd after (by rw [RankedWord.lt_asymm before]; decide))
    (pairwise_ranked_ofWords bag blanks byAlphagram others)
    (pairwise_ranked_ofWords bag blanks byAlphagram words)

/-! ## Ranks and tie ranges by counting words -/

theorem rank?_ofWords {word : String} (member : word ∈ words) :
    (ofWords bag blanks byAlphagram words).rank? word =
      some (1 + (ofWords bag blanks byAlphagram words).words.countP fun other =>
        bag.Precedes blanks byAlphagram other word) := by
  have listed := (mem_ranked_ofWords_iff bag blanks byAlphagram).mpr ⟨word, member, rfl⟩
  obtain ⟨i, here⟩ := List.mem_iff_getElem?.mp listed
  have counted := countP_eq_of_getElem? (fun _ _ => RankedWord.lt_asymm)
    (pairwise_ranked_ofWords bag blanks byAlphagram words) here
  rw [rank?_eq_some_iff (nodup_words_ofWords bag blanks byAlphagram words)]
  have same : (ofWords bag blanks byAlphagram words).words.countP (fun other =>
      decide (bag.Precedes blanks byAlphagram other word)) = i := by
    rw [ProbabilityOrder.words, List.countP_map, ← counted]
    refine List.countP_congr fun r memberR => ?_
    obtain ⟨other, _, rfl⟩ := (mem_ranked_ofWords_iff bag blanks byAlphagram).mp memberR
    rw [RankedWord.lt_ofWord_iff]
    exact decide_eq_true_iff
  rw [same]
  refine ⟨by omega, ?_⟩
  rw [Nat.add_sub_cancel_left, ProbabilityOrder.words, List.getElem?_map, here]
  rfl

theorem countP_words_ofWords (words : List String) (test : String → Prop) [DecidablePred test] :
    (ofWords bag blanks byAlphagram words).words.countP (fun word => test word) =
      (words.toFinset.filter test).card := by
  have same : words.toFinset = (ofWords bag blanks byAlphagram words).words.toFinset := by
    ext word
    rw [List.mem_toFinset, List.mem_toFinset, mem_words_ofWords_iff]
  rw [same, (nodup_words_ofWords bag blanks byAlphagram words).card_eq_countP]

theorem tieRange?_of_mem {word : String} (member : word ∈ words) :
    (ofWords bag blanks byAlphagram words).tieRange? word =
      some (1 + (words.toFinset.filter fun other =>
          bag.likelihood blanks word < bag.likelihood blanks other).card,
        (words.toFinset.filter fun other =>
          bag.likelihood blanks word ≤ bag.likelihood blanks other).card) := by
  have once : ofWords bag blanks byAlphagram words.dedup = ofWords bag blanks byAlphagram words :=
    ofWords_congr bag blanks byAlphagram fun other => List.mem_dedup
  have counted (test : String → Prop) [DecidablePred test] :
      words.dedup.countP (fun word => test word) = (words.toFinset.filter test).card := by
    have same : words.toFinset = words.dedup.toFinset := by
      ext other
      rw [List.mem_toFinset, List.mem_toFinset, List.mem_dedup]
    rw [same, words.nodup_dedup.card_eq_countP]
  rw [← once, tieRange?_ofWords bag blanks byAlphagram words.nodup_dedup (List.mem_dedup.mpr member),
    counted, counted, Nat.add_comm]

/-- An order lists each of its words once. The rank of a word is one more than the number of words that
come before it, its tie range goes from one more than the number of likelier words to the number of
words at least as likely, and nothing depends on where a list has its words or how often. -/
theorem ofWords_of_wordSet (words : List String) :
    let o := ofWords bag blanks byAlphagram words
    let likelihood := bag.likelihood blanks
    (o.words.Nodup ∧ ∀ word, word ∈ o.words ↔ word ∈ words) ∧
      (∀ word ∈ words,
        o.rank? word = some (1 + (words.toFinset.filter fun other =>
            bag.Precedes blanks byAlphagram other word).card) ∧
          o.tieRange? word = some (
            1 + (words.toFinset.filter fun other => likelihood word < likelihood other).card,
            (words.toFinset.filter fun other => likelihood word ≤ likelihood other).card)) ∧
      ∀ others : List String, (∀ word, word ∈ others ↔ word ∈ words) →
        ofWords bag blanks byAlphagram others = o := by
  intro o likelihood
  refine ⟨⟨nodup_words_ofWords bag blanks byAlphagram words, fun word =>
    mem_words_ofWords_iff bag blanks byAlphagram⟩, fun word member => ⟨?_, ?_⟩,
    fun others same => ofWords_congr bag blanks byAlphagram same⟩
  · rw [rank?_ofWords bag blanks byAlphagram member, countP_words_ofWords]
  · exact tieRange?_of_mem bag blanks byAlphagram member

end OfWords

/-- Two words that tie, one of them twice. -/
theorem ofWords_of_wordSet_tie :
    let o := ofWords MatchSet.evenBag 0 true ["IN", "TA", "IN"]
    o.words.Nodup ∧ o.rank? "TA" = some 1 ∧ o.tieRange? "TA" = some (1, 2) ∧
      ofWords MatchSet.evenBag 0 true ["TA", "IN"] = o := by
  intro o
  have tie := MatchSet.likelihood_evenBag
  have least : alphagram "TA" = "AT" := by cbv
  have most : alphagram "IN" = "IN" := by cbv
  have both : ["IN", "TA", "IN"].toFinset = {"IN", "TA"} := by decide
  have first : ∀ other ∈ ({"IN", "TA"} : Finset String),
      ¬MatchSet.evenBag.Precedes 0 true other "TA" := by
    simp only [Finset.forall_mem_insert, Finset.mem_singleton, forall_eq, TileBag.Precedes, tie, least,
      most, UInt64.lt_irrefl, if_true]
    decide
  obtain ⟨⟨nodup, _⟩, counted, same⟩ :=
    ofWords_of_wordSet MatchSet.evenBag 0 true ["IN", "TA", "IN"]
  obtain ⟨ranked, range⟩ := counted "TA" (by simp)
  rw [both] at ranked range
  refine ⟨nodup, ranked.trans ?_, range.trans ?_, same ["TA", "IN"] fun word => ?_⟩
  · rw [Finset.filter_eq_empty_iff.mpr first, Finset.card_empty]
  · have none : ∀ other ∈ ({"IN", "TA"} : Finset String),
        ¬MatchSet.evenBag.likelihood 0 "TA" < MatchSet.evenBag.likelihood 0 other := by
      simp [tie]
    have all : ∀ other ∈ ({"IN", "TA"} : Finset String),
        MatchSet.evenBag.likelihood 0 "TA" ≤ MatchSet.evenBag.likelihood 0 other := by
      simp [tie]
    rw [Finset.filter_eq_empty_iff.mpr none, Finset.filter_eq_self.mpr all]
    decide
  · simp only [List.mem_cons, List.not_mem_nil, or_false]
    tauto

end ProbabilityOrder

end WordFinder
