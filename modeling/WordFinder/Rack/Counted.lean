import WordFinder.Rack
import WordFinder.Total

/-!
# Racks as counts

A counted rack keeps the number of its slots for each letter and of its slots for any letter in
eight bits each. Counts that are full stay as they are. Arithmetic that leaves its range and an
index out of a table have no result.
-/
set_option autoImplicit false

namespace WordFinder

structure CountedRack where
  letters : Vector UInt8 26
  blanks : UInt8
  classes : List LetterClass
  star : Bool

/-- The index of a letter in a table of counts, worked out with the lowest eight bits of its
number. -/
def letterIndex? (c : Char) : Option (Fin 26) :=
  if 'A'.toUInt8 ≤ c.toUInt8 then
    let i := (c.toUInt8 - 'A'.toUInt8).toNat
    if inside : i < 26 then some ⟨i, inside⟩ else none
  else none

/-- A count plus one, unless it is full. -/
def increased (n : UInt8) : UInt8 :=
  if n = UInt8.ofNat Rack.maxCopies then n else n + 1

def decreased? (n : UInt8) : Option UInt8 :=
  if n = 0 then none else some (n - 1)

def withCount (letters : Vector UInt8 26) (i : Fin 26) (n : UInt8) : Vector UInt8 26 :=
  letters.set i n

def countSum (letters : Vector UInt8 26) : Nat :=
  totalOf UInt8.toNat letters.toList

namespace CountedRack

def empty : CountedRack :=
  ⟨Vector.replicate 26 0, 0, [], false⟩

def add? (rack : CountedRack) : Token → Option CountedRack
  | .letter c => do
    let i ← letterIndex? c
    return { rack with letters := withCount rack.letters i (increased (rack.letters.get i)) }
  | .any => some { rack with blanks := increased rack.blanks }
  | .oneOf k => some { rack with classes := rack.classes ++ [k] }
  | .star => some { rack with star := true }

def ofTokens? (tokens : List Token) : Option CountedRack :=
  tokens.foldlM add? empty

def slotCount (rack : CountedRack) : Nat :=
  countSum rack.letters + rack.blanks.toNat + rack.classes.length

end CountedRack

end WordFinder
