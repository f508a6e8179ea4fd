/-!
# Word groups

Groups of words with a name of their own, whose members are computed. Some groups hold words of one
length only.
-/
set_option autoImplicit false

namespace WordFinder

inductive WordGroup where
  | hookWords
  | frontHooks
  | backHooks
  | highFives
  | typeOneSevens
  | typeTwoSevens
  | typeThreeSevens
  | typeOneEights
  | typeTwoEights
  | typeThreeEights
  | eightsFromSevenLetterStems
deriving DecidableEq, Repr

namespace WordGroup

def all : List WordGroup :=
  [hookWords, frontHooks, backHooks, highFives, typeOneSevens, typeTwoSevens, typeThreeSevens,
    typeOneEights, typeTwoEights, typeThreeEights, eightsFromSevenLetterStems]

def name : WordGroup → String
  | hookWords => "Hook Words"
  | frontHooks => "Front Hooks"
  | backHooks => "Back Hooks"
  | highFives => "High Fives"
  | typeOneSevens => "Type I Sevens"
  | typeTwoSevens => "Type II Sevens"
  | typeThreeSevens => "Type III Sevens"
  | typeOneEights => "Type I Eights"
  | typeTwoEights => "Type II Eights"
  | typeThreeEights => "Type III Eights"
  | eightsFromSevenLetterStems => "Eights From Seven-Letter Stems"

def ofName? (name : String) : Option WordGroup :=
  all.find? (·.name == name)

def length? : WordGroup → Option Nat
  | highFives => some 5
  | typeOneSevens | typeTwoSevens | typeThreeSevens => some 7
  | typeOneEights | typeTwoEights | typeThreeEights | eightsFromSevenLetterStems => some 8
  | hookWords | frontHooks | backHooks => none

end WordGroup

end WordFinder
