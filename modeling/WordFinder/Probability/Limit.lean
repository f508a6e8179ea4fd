import WordFinder.Condition
import WordFinder.MatchSet
import WordFinder.Probability.Order

/-!
# Limits by probability order

A limit keeps the words of a result whose rank within that result lies between two bounds. A lax
limit also keeps every word that ties with a word it keeps. Limits for the same number of blanks act
together, and limits for different numbers of blanks must all hold.
-/
set_option autoImplicit false

namespace WordFinder

/-- Bounds on ranks: those that are strict and those that ties may widen. -/
structure RankBounds where
  min : Int := 0
  max : Int := 0x7FFFFFFF
  laxMin : Int := 0
  laxMax : Int := 0x7FFFFFFF
deriving DecidableEq, Repr

namespace RankBounds

def tighten (b : RankBounds) (c : Condition) : RankBounds :=
  if c.lax then
    { b with laxMin := Max.max b.laxMin c.min.toInt, laxMax := Min.min b.laxMax c.max.toInt }
  else { b with min := Max.max b.min c.min.toInt, max := Min.min b.max c.max.toInt }

/-- How many words just before a position are as likely as the word there. -/
def tiesBefore (ranked : List RankedWord) (position : Nat) : Nat :=
  match ranked[position]? with
  | none => 0
  | some r => ((ranked.take position).reverse.takeWhile fun s => s.draws == r.draws).length

/-- How many words just after a position are as likely as the word there. -/
def tiesAfter (ranked : List RankedWord) (position : Nat) : Nat :=
  match ranked[position]? with
  | none => 0
  | some r => ((ranked.drop (position + 1)).takeWhile fun s => s.draws == r.draws).length

/-- The words of an order whose ranks the bounds allow. They form one stretch of the order: the
ranks that all bounds allow, widened by the words that tie with its ends as far as the strict bounds
reach. -/
def kept (b : RankBounds) (ranked : List RankedWord) : List RankedWord :=
  let size : Int := ranked.length
  let strictFirst := Max.max (b.min - 1) 0
  let strictLast := Min.min (b.max - 1) (size - 1)
  let first := Max.max strictFirst (b.laxMin - 1)
  let last := Min.min strictLast (b.laxMax - 1)
  if size ≤ first || last < first then []
  else
    let low := Max.max strictFirst (first - tiesBefore ranked first.toNat)
    let high := Min.min strictLast (last + tiesAfter ranked last.toNat)
    (ranked.drop low.toNat).take (high - low + 1).toNat

end RankBounds

def rankBounds (limits : List Condition) : List (Int32 × RankBounds) :=
  (limits.map (·.blanks)).eraseDups.map fun blanks =>
    (blanks, (limits.filter (·.blanks == blanks)).foldl RankBounds.tighten {})

/-- The words of a set that every limit by probability order keeps. Ranks are those within the set;
if one of the limits was saved in another sense, all of them break ties by spelling. -/
def MatchSet.limitByProbabilityOrder (s : MatchSet) (conditions : List Condition) (bag : TileBag) :
    MatchSet :=
  let limits := conditions.filter (·.kind == .probabilityOrderLimit)
  let byAlphagram := !limits.any (·.legacy)
  (rankBounds limits).foldl
    (fun kept (blanks, bounds) =>
      let order := ProbabilityOrder.ofWords bag blanks byAlphagram s.words
      let words := (bounds.kept order.ranked).map (·.word)
      kept.filter words.contains)
    s

end WordFinder
