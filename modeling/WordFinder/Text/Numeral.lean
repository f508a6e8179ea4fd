/-!
# Numerals

Whole numbers as they are written in options, saved searches and tile distributions: an optional
sign and at least one decimal digit. Signed numbers have 32 bits, counts have 64; a numeral out of
range is refused.
-/
set_option autoImplicit false

namespace WordFinder.Text

/-- Why a text is not a numeral for a signed number. -/
inductive NumeralError where
  | empty
  | invalidDigit
  | tooLarge
  | tooSmall
deriving DecidableEq, Repr

def NumeralError.message : NumeralError → String
  | empty => "cannot parse integer from empty string"
  | invalidDigit => "invalid digit found in string"
  | tooLarge => "number too large to fit in target type"
  | tooSmall => "number too small to fit in target type"

def digitOf (c : Char) : Nat :=
  c.toNat - '0'.toNat

/-- The number that decimal digits add to what was read before them, with the sign of `unit`. The
first character that is no digit or leads out of range decides the error. -/
def readDigits (unit : Int) : Int → List Char → Except NumeralError Int
  | n, [] => .ok n
  | n, c :: cs =>
    let next := 10 * n + unit * digitOf c
    if !c.isDigit then .error .invalidDigit
    else if next ≥ 0x80000000 then .error .tooLarge
    else if next < -0x80000000 then .error .tooSmall
    else readDigits unit next cs

def readUnsigned (unit : Int) (cs : List Char) : Except NumeralError Int :=
  if cs.isEmpty then .error .invalidDigit else readDigits unit 0 cs

def readSigned : List Char → Except NumeralError Int
  | [] => .error .empty
  | '+' :: cs => readUnsigned 1 cs
  | '-' :: cs => readUnsigned (-1) cs
  | cs => readUnsigned 1 cs

def readInt32 (s : String) : Except NumeralError Int32 :=
  (readSigned s.toList).map .ofInt

def int32? (s : String) : Option Int32 :=
  (readInt32 s).toOption

/-- A numeral for a count below 2^64; a minus sign is refused. -/
def count? (s : String) : Option Nat :=
  let digits := match s.toList with
    | '+' :: cs => cs
    | cs => cs
  if !digits.isEmpty && digits.all Char.isDigit then
    let n := digits.foldl (fun n c => 10 * n + digitOf c) 0
    if n < 0x10000000000000000 then some n else none
  else none

end WordFinder.Text
