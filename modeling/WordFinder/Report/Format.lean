import WordFinder.Text.Blank

/-!
# Formats of a report

Numbers, odds, hooks and lists of words as they are shown.
-/
set_option autoImplicit false

namespace WordFinder

/-- The digits of a number with a comma before each group of three, where `digits` are its digits
from the last to the first. -/
def groupReversed : Nat → List Char → List Char
  | _, [] => []
  | n, c :: digits =>
    if n = 3 then ',' :: c :: groupReversed 1 digits else c :: groupReversed (n + 1) digits

def thousands (n : Nat) : String :=
  .ofList (groupReversed 0 (Nat.toDigits 10 n).reverse).reverse

/-- A probability times 10^9 as odds, to the nearest whole number. -/
def oddsText (probability : Float) : String :=
  if probability ≤ 0 then "never"
  else
    let odds := (1e9 / probability).round
    "1 in " ++ thousands (if odds > 1 then odds.toUInt64.toNat else 1)

def padStart (width : Nat) (s : String) : String :=
  .ofList (List.replicate (width - s.length) ' ') ++ s

def padEnd (width : Nat) (s : String) : String :=
  s ++ .ofList (List.replicate (width - s.length) ' ')

/-- A word between its hooks. The hooks before it are padded to a width, so that words line up. -/
def hookedWord (front word back : String) (hookWidth : Nat) : String :=
  Text.trimEnd (padStart hookWidth front ++ " " ++ word ++ " " ++ back)

/-- The parts of a list that have `size` elements each, except the last. -/
def chunks {α : Type} (size : Nat) : Nat → List α → List (List α)
  | _, [] => []
  | 0, _ => []
  | fuel + 1, xs => xs.take size :: chunks size fuel (xs.drop size)

/-- Words in rows of `perRow` columns, at least one, as wide as the longest word. -/
def columns (words : List String) (perRow : Nat) : List String :=
  let width := (words.map String.length).foldl max 0
  (chunks (max perRow 1) words.length words).map fun row =>
    Text.trimEnd ("  ".intercalate (row.map (padEnd width)))

end WordFinder
