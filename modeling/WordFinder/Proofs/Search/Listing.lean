import Mathlib
import WordFinder.Proofs.MatchSet.Algebra
import WordFinder.Proofs.Probability.WordSet
import WordFinder.Proofs.Search.Exact

/-!
# The order in which match sets list their words

A search goes through match sets to intersect and unite them, to judge their words with one memory, to
rank them and to give its result. Here every such pass lists a set in an order of its own. No order
shows in the result: each pass gives the same set, with the same marks, and the result is sorted.
-/
set_option autoImplicit false

namespace WordFinder

/-- An order in which each match set lists its entries. -/
structure Listing where
  entries : MatchSet → List (String × String)
  perm : ∀ s, (entries s).Perm s.entries

namespace Listing

variable (l : Listing)

def words (s : MatchSet) : List String :=
  (l.entries s).map Prod.fst

/-! ## Passes over a match set -/

def inter (s t : MatchSet) : MatchSet :=
  (l.entries t).foldl MatchSet.takeExact (s.filter t.contains)

def union (s t : MatchSet) : MatchSet :=
  ((l.entries t).map Prod.snd).foldl MatchSet.insert s

def filterJudged (s : MatchSet) (test : String → StateM Memory Bool) : MatchSet :=
  let kept := Std.HashSet.ofList (((l.words s).filterM test).run {}).1
  s.filter kept.contains

def limit (s : MatchSet) (conditions : List Condition) (bag : TileBag) : MatchSet :=
  let limits := conditions.filter (·.kind == .probabilityOrderLimit)
  (rankBounds limits).foldl
    (fun kept bounds =>
      kept.filter (MatchSet.keptBy bag (!limits.any (·.legacy)) (l.words s) bounds).contains)
    s

theorem mem_words_iff {s : MatchSet} {word : String} : word ∈ l.words s ↔ word ∈ s.words :=
  ((l.perm s).map Prod.fst).mem_iff

variable {s t u v : MatchSet}

theorem inter_alike (first : s.Alike t) (u : MatchSet) : (l.inter s u).Alike (t.inter u) := by
  intro word
  calc (l.inter s u).spelling? word
    _ = (s.inter u).spelling? word := MatchSet.foldl_takeExact_alike (l.perm u) word
    _ = (t.inter u).spelling? word := first.inter (.refl u) word

theorem union_alike (first : s.Alike t) (second : u.Alike v) :
    (l.union s u).Alike (t.union v) := by
  intro word
  calc (l.union s u).spelling? word
    _ = (s.union u).spelling? word := by
      rw [union, MatchSet.spelling?_foldl_insert_perm ((l.perm u).map Prod.snd),
        MatchSet.spelling?_union]
    _ = (t.union v).spelling? word := first.union second word

/-- A judge gives its verdict on a word whatever it remembers, so also whatever words came before. -/
theorem filterJudged_alike (first : s.Alike t) {x : Lexicon} {test : String → StateM Memory Bool}
    {keep : String → Bool} (gives : ∀ word, x.Gives (test word) (keep word)) :
    (l.filterJudged s test).Alike (t.filterJudged test) := by
  have kept := (Lexicon.gives_filterM gives (l.words s) {} (Memory.isSound_fresh x)).1
  have verdicts (word : String) (member : s.contains word = true) :
      (Std.HashSet.ofList ((l.words s).filter keep)).contains word = keep word := by
    rw [Std.HashSet.contains_ofList, Bool.eq_iff_iff, List.contains_iff_mem, List.mem_filter,
      l.mem_words_iff]
    exact and_iff_right (MatchSet.mem_words_iff.mpr member)
  intro word
  rw [filterJudged, kept, t.filterJudged_alike gives]
  exact first.filter verdicts word

/-- Ranks within a set do not depend on where the set lists a word, so neither does what limits keep. -/
theorem limit_eq (conditions : List Condition) (bag : TileBag) :
    l.limit s conditions bag = s.limitByProbabilityOrder conditions bag := by
  have ranked (blanks : Int32) (byAlphagram : Bool) :
      ProbabilityOrder.ofWords bag blanks byAlphagram (l.words s) =
        ProbabilityOrder.ofWords bag blanks byAlphagram s.words :=
    ProbabilityOrder.ofWords_congr bag blanks byAlphagram fun _ => l.mem_words_iff
  simp only [limit, MatchSet.keptBy, ranked]
  rfl

/-! ## Searches -/

variable (x : Lexicon)

def matchesOfAll (limits : WalkLimits) : List Condition → MatchSet
  | [] => x.wordsWithin limits
  | c :: matchers =>
    matchers.foldl (fun found c => l.inter found (x.matchesOf limits c)) (x.matchesOf limits c)

def findAll (matchers filters : List Condition) (limits : WalkLimits) : MatchSet :=
  l.filterJudged (l.matchesOfAll x limits matchers) (x.judgeAll · filters)

def findAny (matchers filters : List Condition) : MatchSet :=
  if matchers.isEmpty && filters.isEmpty then x.wordsWithin {}
  else
    let matched := matchers.foldl (fun found c => l.union found (x.matchesOf {} c)) .empty
    if filters.isEmpty then matched
    else l.union matched (l.filterJudged (x.wordsWithin {}) (x.judgeAny · filters))

def findOptimized (spec : SearchSpec) : MatchSet :=
  let (matchers, rest) := spec.conditions.partition (·.isMatch)
  let (limits, filters) := rest.partition (·.kind == .probabilityOrderLimit)
  let found :=
    if spec.conjunction then l.findAll x matchers filters (.ofConditions spec.conditions)
    else l.findAny x matchers filters
  l.limit found limits x.bag

def find (spec : SearchSpec) : MatchSet :=
  match spec.optimize with
  | (spec, .normal) => (x.findListed? spec).getD (l.findOptimized x spec)
  | _ => .empty

def search (spec : SearchSpec) : List String :=
  (l.words (l.find x spec)).mergeSort (· ≤ ·)

def searchMarked (spec : SearchSpec) : List String :=
  ((l.entries (l.find x spec)).mergeSort fun a b => a.1 ≤ b.1).map Prod.snd

theorem matchesOfAll_alike (limits : WalkLimits) (matchers : List Condition) :
    (l.matchesOfAll x limits matchers).Alike (x.matchesOfAll limits matchers) := by
  cases matchers with
  | nil => exact .refl _
  | cons c matchers =>
    have pass : ∀ found other : MatchSet, found.Alike other →
        (matchers.foldl (fun found c => l.inter found (x.matchesOf limits c)) found).Alike
          (matchers.foldl (fun found c => found.inter (x.matchesOf limits c)) other) := by
      induction matchers with
      | nil => exact fun _ _ alike => alike
      | cons d matchers ih => exact fun _ _ alike => ih _ _ (l.inter_alike alike _)
    exact pass _ _ (.refl _)

theorem findAll_alike (matchers filters : List Condition) (limits : WalkLimits) :
    (l.findAll x matchers filters limits).Alike (x.findAll matchers filters limits) :=
  l.filterJudged_alike (l.matchesOfAll_alike x limits matchers)
    fun word => x.gives_judgeAll word filters

theorem findAny_alike (matchers filters : List Condition) :
    (l.findAny x matchers filters).Alike (x.findAny matchers filters) := by
  have pass : ∀ found other : MatchSet, found.Alike other →
      (matchers.foldl (fun found c => l.union found (x.matchesOf {} c)) found).Alike
        (matchers.foldl (fun found c => found.union (x.matchesOf {} c)) other) := by
    induction matchers with
    | nil => exact fun _ _ alike => alike
    | cons c matchers ih => exact fun _ _ alike => ih _ _ (l.union_alike alike (.refl _))
  have judged := l.filterJudged_alike (MatchSet.Alike.refl (x.wordsWithin {}))
    fun word => x.gives_judgeAny word filters
  rw [findAny, Lexicon.findAny]
  split
  · exact .refl _
  · split
    · exact pass _ _ (.refl _)
    · exact l.union_alike (pass _ _ (.refl _)) judged

theorem findOptimized_alike (spec : SearchSpec) :
    (l.findOptimized x spec).Alike (x.findOptimized spec) := by
  simp only [findOptimized, Lexicon.findOptimized, limit_eq]
  split
  · exact (l.findAll_alike x _ _ _).limitByProbabilityOrder _ _
  · exact (l.findAny_alike x _ _).limitByProbabilityOrder _ _

theorem find_alike (spec : SearchSpec) : (l.find x spec).Alike (x.find spec) := by
  rw [find, Lexicon.find]
  obtain ⟨optimized, state⟩ := spec.optimize
  cases state with
  | normal =>
    simp only
    cases x.findListed? optimized with
    | none => exact l.findOptimized_alike x optimized
    | some found => exact .refl found
  | unconstrained | contradictory => exact .refl _

/-! ## Results -/

theorem mergeSort_entries (s : MatchSet) :
    ((l.entries s).mergeSort fun a b => a.1 ≤ b.1) = s.entries := by
  have sorted := pairwise_key_mergeSort Prod.fst (l.entries s)
  have ordered : s.entries.Pairwise fun a b => a.1 ≤ b.1 :=
    (List.pairwise_map.mp s.pairwise_words).imp fun before => (compare_lt_iff_lt.mp before).le
  have perm := (List.mergeSort_perm (l.entries s) fun a b => a.1 ≤ b.1).trans (l.perm s)
  refine perm.eq_of_pairwise (fun a b listed member first second => ?_) sorted ordered
  have same : a.1 = b.1 := le_antisymm first second
  have spelledA : s.spelling? a.1 = some a.2 := MatchSet.mem_entries_iff.mp (perm.mem_iff.mp listed)
  have spelledB : s.spelling? b.1 = some b.2 := MatchSet.mem_entries_iff.mp member
  exact Prod.ext same (Option.some.inj (by rw [← spelledA, ← spelledB, same]))

theorem mergeSort_words (s : MatchSet) : (l.words s).mergeSort (· ≤ ·) = s.words := by
  have sorted := pairwise_key_mergeSort id (l.words s)
  have ordered : s.words.Pairwise (· ≤ ·) :=
    s.pairwise_words.imp fun before => (compare_lt_iff_lt.mp before).le
  have perm := (List.mergeSort_perm (l.words s) (· ≤ ·)).trans ((l.perm s).map Prod.fst)
  exact perm.eq_of_pairwise (fun a b _ _ => le_antisymm) sorted ordered

/-- Whatever the order in which match sets list their words, a search gives the same words and the same
marks. -/
theorem search_eq (spec : SearchSpec) :
    l.search x spec = x.search spec ∧ l.searchMarked x spec = x.searchMarked spec := by
  have alike := l.find_alike x spec
  rw [search, searchMarked, mergeSort_words, mergeSort_entries]
  exact ⟨alike.words_eq, alike.markedSpellings_eq⟩

end Listing

end WordFinder
