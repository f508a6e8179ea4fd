import WordFinder.Search.Spec
import WordFinder.Search.Window
import WordFinder.SearchString
import WordFinder.WordGroup

/-!
# Optimized searches

A search whose conditions must all hold is brought into a normal form. Conditions that bound the
length, vowels, different letters, points or anagrams of a word become one window each, together
with the lengths that patterns, racks and groups imply; the windows come first and the other
conditions follow in their order. Conditions that contradict each other leave no search at all. A
search of which one condition is enough only has its search strings put into canonical spelling.
-/
set_option autoImplicit false

namespace WordFinder

/-- What is known about a search once it was optimized. -/
inductive SpecState where
  | unconstrained
  /-- The conditions contradict each other; none is left. -/
  | contradictory
  | normal
deriving DecidableEq, Repr

def SpecState.name : SpecState → String
  | unconstrained => "Unconstrained"
  | contradictory => "Contradictory"
  | normal => "Normal"

def Condition.canonical (c : Condition) : Condition :=
  if c.kind.isMatch || c.kind = .includesLetters then
    { c with string := SearchString.canonical c.string }
  else c

/-- What the conditions of a search say so far. -/
structure Requirements where
  windows : Windows := {}
  included : List Char := []
  excluded : List Char := []
  /-- The lexicons named, each with whether the condition was negated. -/
  lexicons : List (String × Bool) := []
  partsOfSpeech : List (String × Bool) := []
deriving DecidableEq, Repr

namespace Requirements

def boundLength (r : Requirements) (min max : Int32) : Option Requirements :=
  let windows := { r.windows with lengths := r.windows.lengths.tighten min max }
  if windows.lengthsPossible then some { r with windows } else none

/-- The length that a pattern or an anagram without a star has, and that a subanagram does not
exceed. -/
def boundByMatch (r : Requirements) (c : Condition) : Option Requirements :=
  if c.negated || c.string.toList.contains '*' then some r
  else
    let slots := Int32.ofNat (SearchString.slotCount c.string)
    r.boundLength (if c.kind = .subanagramMatch then 0 else slots) slots

def boundByGroup (r : Requirements) (c : Condition) : Option Requirements :=
  match if c.negated then none else (WordGroup.ofName? c.string).bind WordGroup.length? with
  | some n => r.boundLength (.ofNat n) (.ofNat n)
  | none => some r

/-- A letter cannot be both required and refused. -/
def addLetters (r : Requirements) (c : Condition) : Option Requirements :=
  let letters := c.string.toList.filter Char.isUpper
  if c.negated then
    if letters.any r.included.contains then none
    else some { r with excluded := r.excluded ++ letters }
  else
    if letters.any r.excluded.contains then none
    else some { r with included := r.included ++ letters }

/-- The names so far with one more, unless it was named with the other sense. -/
def addName (names : List (String × Bool)) (c : Condition) : Option (List (String × Bool)) :=
  if names.contains (c.string, !c.negated) then none else some ((c.string, c.negated) :: names)

/-- The requirements with one more condition, if they can still be met. -/
def add (r : Requirements) (c : Condition) : Option Requirements :=
  let w := r.windows
  match c.kind with
  | .patternMatch | .anagramMatch | .subanagramMatch => r.boundByMatch c
  | .length => r.boundLength c.min c.max
  | .includesLetters => r.addLetters c
  | .belongsToGroup => r.boundByGroup c
  | .inLexicon => (addName r.lexicons c).map fun lexicons => { r with lexicons }
  | .partOfSpeech => (addName r.partsOfSpeech c).map fun partsOfSpeech => { r with partsOfSpeech }
  | .anagramCount =>
    let windows := { w with anagrams := w.anagrams.tighten c.min c.max }
    if windows.anagramsPossible then some { r with windows } else none
  | .vowelCount =>
    let windows := { w with vowels := w.vowels.tighten c.min c.max }
    if windows.vowelsPossible then some { r with windows } else none
  | .uniqueLetterCount =>
    let windows := { w with uniqueLetters := w.uniqueLetters.tighten c.min c.max }
    if windows.uniqueLettersPossible then some { r with windows } else none
  | .pointValue =>
    let windows := { w with points := w.points.tighten c.min c.max }
    if windows.pointsPossible then some { r with windows } else none
  | _ => some r

def addAll (r : Requirements) (conditions : List Condition) : Option Requirements :=
  conditions.foldlM add r

end Requirements

/-- The kinds of condition that a window expresses in full. -/
def ConditionKind.isWindow : ConditionKind → Bool
  | length | vowelCount | uniqueLetterCount | pointValue | anagramCount => true
  | _ => false

/-- The window as a condition, unless every word lies in it. -/
def Window.condition? (w : Window) (kind : ConditionKind) (bound : Int32) : List Condition :=
  if w.isNarrowerThan bound then [.ofRange kind w.min w.max] else []

def Windows.conditions (w : Windows) : List Condition :=
  w.lengths.condition? .length beyondLengths
    ++ w.vowels.condition? .vowelCount beyondLengths
    ++ w.uniqueLetters.condition? .uniqueLetterCount beyondLengths
    ++ w.points.condition? .pointValue beyondPoints
    ++ w.anagrams.condition? .anagramCount anagramBound

namespace SearchSpec

/-- The normal form of conditions that must all hold, if they do not contradict each other. It is
never empty: windows that bound nothing leave the widest length. -/
def mergeAll (conditions : List Condition) : Option (List Condition) := do
  let canonical := conditions.map Condition.canonical
  let r ← Requirements.addAll {} canonical
  if !r.windows.areConsistent then none
  else
    match r.windows.conditions ++ canonical.filter fun c => !c.kind.isWindow with
    | [] => some [.ofRange .length r.windows.lengths.min r.windows.lengths.max]
    | merged => some merged

def optimize (spec : SearchSpec) : SearchSpec × SpecState :=
  if spec.conditions.isEmpty then (spec, .unconstrained)
  else if !spec.conjunction then
    ({ spec with conditions := spec.conditions.map Condition.canonical }, .normal)
  else
    match mergeAll spec.conditions with
    | some conditions => ({ spec with conditions }, .normal)
    | none => ({ spec with conditions := [] }, .contradictory)

end SearchSpec

end WordFinder
