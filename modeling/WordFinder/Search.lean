import Std.Data.HashSet
import WordFinder.Probability.Limit
import WordFinder.Search.Judge
import WordFinder.Search.Optimize

/-!
# Searches

A search is optimized first. One that only asks for the words of word lists is answered by looking
them up. Otherwise patterns and racks are answered by walking the tries, within the lengths and
letters that the other conditions allow; what they find is intersected or united and the remaining
conditions are judged word by word. Limits by probability order apply to the result as a whole.
-/
set_option autoImplicit false

namespace WordFinder

namespace WalkLimits

def tighten (limits : WalkLimits) (c : Condition) : WalkLimits :=
  match c.kind with
  | .length =>
    let longest : Int := maxWordLength
    { limits with
      minLength := max limits.minLength (max 1 (min c.min.toInt longest)).toNat
      maxLength := min limits.maxLength (max 0 (min c.max.toInt longest)).toNat }
  | .includesLetters =>
    if c.negated then { limits with excluded := limits.excluded ++ c.wantedLetters } else limits
  | _ => limits

def ofConditions (conditions : List Condition) : WalkLimits :=
  conditions.foldl tighten {}

end WalkLimits

def MatchSet.filterJudged (s : MatchSet) (test : String → StateM Memory Bool) : MatchSet :=
  let kept := Std.HashSet.ofList ((s.words.filterM test).run {}).1
  s.filter kept.contains

namespace Lexicon

def matchesOf (x : Lexicon) (limits : WalkLimits) (c : Condition) : MatchSet :=
  match c.kind with
  | .patternMatch =>
    match Pattern.ofString? c.string with
    | some p => x.graph.patternMatches p limits
    | none => .empty
  | .anagramMatch | .subanagramMatch =>
    match Rack.ofString? c.string with
    | some rack => x.graph.rackMatches rack (c.kind = .subanagramMatch) limits
    | none => .empty
  | _ => .empty

def matchesOfAll (x : Lexicon) (limits : WalkLimits) : List Condition → MatchSet
  | [] => x.wordsWithin limits
  | c :: matchers =>
    matchers.foldl (fun found c => found.inter (x.matchesOf limits c)) (x.matchesOf limits c)

def findAll (x : Lexicon) (matchers filters : List Condition) (limits : WalkLimits) : MatchSet :=
  (x.matchesOfAll limits matchers).filterJudged (x.judgeAll · filters)

def findAny (x : Lexicon) (matchers filters : List Condition) : MatchSet :=
  if matchers.isEmpty && filters.isEmpty then x.wordsWithin {}
  else
    let matched := matchers.foldl (fun found c => found.union (x.matchesOf {} c)) .empty
    if filters.isEmpty then matched
    else matched.union ((x.wordsWithin {}).filterJudged (x.judgeAny · filters))

def listedWords (x : Lexicon) (c : Condition) : List String :=
  ((Text.words c.string).map Text.upper).filter x.graph.contains

def findListed? (x : Lexicon) (spec : SearchSpec) : Option MatchSet :=
  if spec.conditions.all fun c => c.kind == .inWordList && !c.negated then
    match spec.conditions.map x.listedWords with
    | [] => none
    | first :: others =>
      some (.ofSpellings (others.foldl
        (fun found listed => if spec.conjunction then found.filter listed.contains else found ++ listed)
        first))
  else none

def findOptimized (x : Lexicon) (spec : SearchSpec) : MatchSet :=
  let (matchers, rest) := spec.conditions.partition (·.isMatch)
  let (limits, filters) := rest.partition (·.kind == .probabilityOrderLimit)
  let found :=
    if spec.conjunction then x.findAll matchers filters (.ofConditions spec.conditions)
    else x.findAny matchers filters
  found.limitByProbabilityOrder limits x.bag

def find (x : Lexicon) (spec : SearchSpec) : MatchSet :=
  match spec.optimize with
  | (spec, .normal) => (x.findListed? spec).getD (x.findOptimized spec)
  | _ => .empty

/-- What a search that finds some words logs: how it was optimized, if all its conditions have to hold,
and then how it was answered. -/
def searchLog (x : Lexicon) (spec : SearchSpec) (found : MatchSet) : List LogRecord :=
  let (optimized, state) := spec.optimize
  let merged :=
    if spec.conjunction && !spec.conditions.isEmpty then
      [.ofOptimizer .debug "optimized search spec"
        [("state", state.name), ("conditions", toString optimized.conditions.length)]]
    else []
  let answered :=
    if state != .normal then .ofEngine .debug "search spec matches nothing" [("state", state.name)]
    else if (x.findListed? optimized).isSome then
      .ofEngine .debug "answered from word lists" [("found", toString found.size)]
    else
      let (matchers, rest) := optimized.conditions.partition (·.isMatch)
      let filters := rest.filter (·.kind != .probabilityOrderLimit)
      .ofEngine .debug "search complete"
        [("found", toString found.size), ("matchers", toString matchers.length),
          ("filters", toString filters.length)]
  merged ++ [answered]

def search (x : Lexicon) (spec : SearchSpec) : List String :=
  (x.find spec).words

/-- The words that a search finds, in order, with the letters that wildcards supplied in lower
case. -/
def searchMarked (x : Lexicon) (spec : SearchSpec) : List String :=
  (x.find spec).markedSpellings

end Lexicon

end WordFinder
