import Mathlib
import WordFinder.Probability.Limit
import WordFinder.Proofs.MatchSet.Spelling

/-!
# What limits by probability order depend on

A limit keeps words of a set by their ranks among the words of the set, with their spellings. It looks
neither at the marks of the spellings nor at conditions of other kinds.
-/
set_option autoImplicit false

namespace WordFinder.MatchSet

/-- The words of a list that one step of a limit keeps. -/
def keptBy (bag : TileBag) (byAlphagram : Bool) (words : List String)
    (bounds : Int32 × RankBounds) : List String :=
  (bounds.2.kept (ProbabilityOrder.ofWords bag bounds.1 byAlphagram words).ranked).map (·.word)

theorem words_foldl_filter {ι : Type} (steps : List ι) (keep : ι → String → Bool) (s : MatchSet) :
    (steps.foldl (fun kept step => kept.filter (keep step)) s).words =
      s.words.filter fun word => steps.all fun step => keep step word := by
  induction steps generalizing s with
  | nil => simp
  | cons step steps ih =>
    rw [List.foldl_cons, ih, words_filter, List.filter_filter]
    simp only [List.all_cons, Bool.and_comm]

theorem words_limitByProbabilityOrder (s : MatchSet) (conditions : List Condition) (bag : TileBag) :
    (s.limitByProbabilityOrder conditions bag).words =
      let limits := conditions.filter (·.kind == .probabilityOrderLimit)
      s.words.filter fun word => (rankBounds limits).all fun bounds =>
        (keptBy bag (!limits.any (·.legacy)) s.words bounds).contains word :=
  words_foldl_filter _ (fun bounds word => (keptBy bag _ s.words bounds).contains word) s

theorem words_limit_congr {s t : MatchSet} {conditions others : List Condition} (bag : TileBag)
    (sameWords : s.words = t.words)
    (sameLimits : conditions.filter (·.kind == .probabilityOrderLimit) =
      others.filter (·.kind == .probabilityOrderLimit)) :
    (s.limitByProbabilityOrder conditions bag).words =
      (t.limitByProbabilityOrder others bag).words := by
  simp only [words_limitByProbabilityOrder, sameWords, sameLimits]

theorem words_limit_of_no_limits (s : MatchSet) {conditions : List Condition} (bag : TileBag)
    (noLimits : conditions.filter (·.kind == .probabilityOrderLimit) = []) :
    (s.limitByProbabilityOrder conditions bag).words = s.words := by
  rw [words_limitByProbabilityOrder, noLimits]
  exact List.filter_eq_self.mpr fun _ _ => rfl

theorem words_limit_empty (conditions : List Condition) (bag : TileBag) :
    (empty.limitByProbabilityOrder conditions bag).words = [] := by
  have none : empty.words = [] := by
    rw [List.eq_nil_iff_forall_not_mem]
    intro word member
    rw [mem_words_iff, contains_empty] at member
    contradiction
  rw [words_limitByProbabilityOrder, none]
  rfl

theorem limitByProbabilityOrder_alike (s : MatchSet) (conditions : List Condition) (bag : TileBag) :
    (s.limitByProbabilityOrder conditions bag).Alike
      (s.filter (s.limitByProbabilityOrder conditions bag).contains) := by
  intro word
  have spelled : (s.limitByProbabilityOrder conditions bag).spelling? word = _ :=
    spelling?_foldl_filter _ (fun bounds word => (keptBy bag _ s.words bounds).contains word) s word
  rw [spelling?_filter, contains_eq_isSome, spelled]
  split
  · cases found : s.spelling? word <;> rfl
  · rfl

theorem Alike.limitByProbabilityOrder {s t : MatchSet} (alike : s.Alike t)
    (conditions : List Condition) (bag : TileBag) :
    (s.limitByProbabilityOrder conditions bag).Alike
      (t.limitByProbabilityOrder conditions bag) := by
  have sameWords : (s.limitByProbabilityOrder conditions bag).words =
      (t.limitByProbabilityOrder conditions bag).words := words_limit_congr bag alike.words_eq rfl
  have same (word : String) : (s.limitByProbabilityOrder conditions bag).contains word =
      (t.limitByProbabilityOrder conditions bag).contains word := by
    rw [Bool.eq_iff_iff, ← mem_words_iff, ← mem_words_iff, sameWords]
  intro word
  rw [s.limitByProbabilityOrder_alike, t.limitByProbabilityOrder_alike]
  exact alike.filter (fun word _ => same word) word

end WordFinder.MatchSet
