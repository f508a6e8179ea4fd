/-!
# White space

The white space of word lists and search strings is the Unicode property `White_Space`: 25
characters. Texts are trimmed, cut into words and cut into lines here. A word is a maximal run of
characters that are not white space.
-/
set_option autoImplicit false

namespace WordFinder.Text

/-- The characters with the Unicode property `White_Space`. -/
def isBlank (c : Char) : Bool :=
  let n := c.toNat
  (9 ≤ n && n ≤ 13) || n == 0x20 || n == 0x85 || n == 0xA0 || n == 0x1680
    || (0x2000 ≤ n && n ≤ 0x200A) || n == 0x2028 || n == 0x2029 || n == 0x202F || n == 0x205F
    || n == 0x3000

def dropBlanks (cs : List Char) : List Char :=
  cs.dropWhile isBlank

def dropTrailingBlanks (cs : List Char) : List Char :=
  (dropBlanks cs.reverse).reverse

def trim (s : String) : String :=
  .ofList (dropTrailingBlanks (dropBlanks s.toList))

def trimEnd (s : String) : String :=
  .ofList (dropTrailingBlanks s.toList)

/-- The words of a text, where `current` is the word being read, last letter first. -/
def wordsFrom : List Char → List Char → List (List Char)
  | current, [] => if current.isEmpty then [] else [current.reverse]
  | current, c :: cs =>
    if isBlank c then
      if current.isEmpty then wordsFrom [] cs else current.reverse :: wordsFrom [] cs
    else wordsFrom (c :: current) cs

def words (s : String) : List String :=
  (wordsFrom [] s.toList).map .ofList

/-- A line without the carriage return that ends it, given last character first. -/
def lineOfReversed : List Char → String
  | '\r' :: cs => .ofList cs.reverse
  | cs => .ofList cs.reverse

def linesFrom : List Char → List Char → List String
  | [], [] => []
  | current, [] => [.ofList current.reverse]
  | current, c :: cs =>
    if c = '\n' then lineOfReversed current :: linesFrom [] cs else linesFrom (c :: current) cs

/-- The lines of a text. A line ends at a line feed or at a carriage return and line feed; a text
that ends in a line feed has no empty line after it. -/
def lines (s : String) : List String :=
  linesFrom [] s.toList

/-- The parts of a text between the occurrences of a separator, found from left to right;
`current` is the part being read, last character first. -/
def splitFrom (separator : List Char) : Nat → List Char → List Char → List (List Char)
  | _, current, [] => [current.reverse]
  | skip + 1, current, _ :: cs => splitFrom separator skip current cs
  | 0, current, c :: cs =>
    if separator.isPrefixOf (c :: cs) then
      current.reverse :: splitFrom separator (separator.length - 1) [] cs
    else splitFrom separator 0 (c :: current) cs

def splitOn (separator s : String) : List String :=
  (splitFrom separator.toList 0 [] s.toList).map .ofList

/-- The parts of a text before and after the first occurrence of a character. -/
def splitAtFirst (mark : Char) (s : String) : Option (String × String) :=
  let before := s.toList.takeWhile (· != mark)
  match s.toList.dropWhile (· != mark) with
  | [] => none
  | _ :: after => some (.ofList before, .ofList after)

end WordFinder.Text
