import WordFinder.Text.CaseTable

/-!
# Letter case

Two ways to fold case. The ASCII fold changes the letters `a` to `z` only; words of a lexicon are
looked up with it. The full mappings follow Unicode: a character may become several (`ß` becomes
`SS`), and a capital sigma that ends a word becomes `ς`.
-/
set_option autoImplicit false

namespace WordFinder.Text

/-- Upper case for the letters `a` to `z`; other characters stay. -/
def upper (s : String) : String :=
  .ofList (s.toList.map Char.toUpper)

def inRanges (ranges : List (Nat × Nat)) (c : Char) : Bool :=
  ranges.any fun range => range.1 ≤ c.toNat && c.toNat ≤ range.2

def mapByRuns (runs : List CaseRun) (c : Char) : Char :=
  match runs.findSome? (·.image? c.toNat) with
  | some n => .ofNat n
  | none => c

def fullUpperChar (c : Char) : List Char :=
  if c.toNat < 128 then [c.toUpper]
  else
    match longUpperCase.lookup c.toNat with
    | some spelling => spelling.map .ofNat
    | none => [mapByRuns upperCaseRuns c]

def fullUpper (s : String) : String :=
  .ofList (s.toList.flatMap fullUpperChar)

/-- Whether the nearest character that is not case-ignorable is cased. -/
def nearestIsCased (cs : List Char) : Bool :=
  match cs.dropWhile (inRanges caseIgnorableRanges) with
  | [] => false
  | c :: _ => inRanges casedRanges c

/-- The lower-case spelling of `c`, where `before` are the characters before it, last first, and
`after` those that follow it. A sigma is final if a cased character comes before it and none
follows. -/
def fullLowerChar (before : List Char) (c : Char) (after : List Char) : List Char :=
  if c.toNat < 128 then [c.toLower]
  else if c = 'Σ' then
    if nearestIsCased before && !nearestIsCased after then ['ς'] else ['σ']
  else if c = 'İ' then ['i', .ofNat 0x307]
  else [mapByRuns lowerCaseRuns c]

def fullLowerFrom : List Char → List Char → List Char
  | _, [] => []
  | before, c :: after => fullLowerChar before c after ++ fullLowerFrom (c :: before) after

def fullLower (s : String) : String :=
  .ofList (fullLowerFrom [] s.toList)

end WordFinder.Text
