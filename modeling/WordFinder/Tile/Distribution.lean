import WordFinder.Text.Blank
import WordFinder.Text.Numeral
import WordFinder.Tile.Bag

/-!
# Tile distributions

A distribution lists how many tiles a bag has of each kind, such as `A:9 B:2 _:2`. Entries are
divided by white space, and the last entry for a kind counts. A bag comes with a table of binomial
coefficients, one row for each number up to its largest count. A count that asks for more rows than
a table can be asked for stops the program.
-/
set_option autoImplicit false

namespace WordFinder

inductive DistributionError where
  /-- The entry is not one character, a colon and a count. -/
  | malformedEntry (entry : String)
  | invalidTile (tile : Char)
  | invalidCount (entry : String)
deriving DecidableEq, Repr

def DistributionError.message : DistributionError → String
  | malformedEntry entry => "malformed distribution entry \"" ++ entry ++ "\", expected LETTER:COUNT"
  | invalidTile tile => "invalid tile '" ++ .singleton tile ++ "' in distribution"
  | invalidCount entry => "invalid count in distribution entry \"" ++ entry ++ "\""

/-- Why a distribution gives no bag. -/
inductive BagFailure where
  | unreadable (cause : DistributionError)
  /-- The program stops, since no table has that many rows. -/
  | tableTooLong
deriving DecidableEq, Repr

namespace TileBag

def standardDistribution : String :=
  "A:9 B:2 C:2 D:4 E:12 F:2 G:3 H:2 I:9 J:1 K:1 L:4 M:2 " ++
  "N:6 O:8 P:2 Q:1 R:6 S:4 T:6 U:4 V:2 W:2 X:1 Y:2 Z:1 _:2"

def readEntry (entry : String) : Except DistributionError (Char × Nat) :=
  match Text.splitAtFirst ':' entry with
  | none => .error (.malformedEntry entry)
  | some (tile, count) =>
    match tile.toList with
    | [c] =>
      if c.toUpper != blankTile && !c.toUpper.isUpper then .error (.invalidTile c.toUpper)
      else
        match Text.count? count with
        | none => .error (.invalidCount entry)
        | some n => .ok (c.toUpper, n)
    | _ => .error (.malformedEntry entry)

/-- How many rows of 24 bytes fit into the largest block of memory, 2^63 - 8 bytes. -/
def maxTableRows : Nat := 0x7ffffffffffffff8 / 24

def largestCount (bag : TileBag) : Nat :=
  (tiles.map bag.frequency).max?.getD 0

/-- A bag whose table has been laid out, with a row for each number up to the largest count. -/
def withTable (bag : TileBag) : Except BagFailure TileBag :=
  if bag.largestCount < maxTableRows then .ok bag else .error .tableTooLong

def ofDistribution (distribution : String) : Except BagFailure TileBag :=
  match (Text.words distribution).mapM readEntry with
  | .ok entries => withTable ⟨entries.reverse⟩
  | .error cause => .error (.unreadable cause)

end TileBag

end WordFinder
