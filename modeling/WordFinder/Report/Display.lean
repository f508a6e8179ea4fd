import WordFinder.Report.Format
import WordFinder.Report.Style
import WordFinder.WordInfo

/-!
# Reports on a terminal

The texts that the command line prints about a lexicon, a search or a word, with or without colours.
-/
set_option autoImplicit false

namespace WordFinder.Report

def wordsPerRow : Nat := 6

def rule (colours : Bool) : String :=
  Style.cyan.paint colours (.ofList (List.replicate 60 '═')) ++ "\n"

def header (colours : Bool) (title subject : String) : String :=
  "\n" ++ rule colours
    ++ " " ++ Style.boldBrightCyan.paint colours title
    ++ " " ++ Style.boldBrightYellow.paint colours subject ++ " \n"
    ++ rule colours

def loaded (colours : Bool) (x : Lexicon) (stems : Nat) : String :=
  "📚 " ++ Style.boldBrightCyan.paint colours x.name
    ++ " " ++ Style.brightYellow.paint colours (thousands x.wordCount)
    ++ " words (" ++ thousands x.graph.forward.nodeCount
    ++ " + " ++ thousands x.graph.backward.nodeCount
    ++ " nodes), " ++ thousands stems ++ " stems\n"

def checkLine (colours : Bool) (c : WordCheck) : String :=
  if c.valid then
    Style.green.paint colours "✅" ++ " " ++ Style.boldGreen.paint colours c.word ++ "\n"
  else Style.red.paint colours "❌" ++ " " ++ Style.boldRed.paint colours c.word ++ "\n"

def checked (colours : Bool) (checks : List WordCheck) : String :=
  String.join (checks.map (checkLine colours))
    ++ "\n" ++ Style.boldBrightYellow.paint colours (toString (checks.countP (·.valid)))
    ++ " of " ++ toString checks.length ++ " acceptable\n"

/-- A letter of a marked spelling: one that a wildcard supplied is shown in upper case and in a
colour. -/
def markedLetter (colours : Bool) (c : Char) : String :=
  if c.isLower then Style.boldBrightMagenta.paint colours (.singleton c.toUpper)
  else .singleton c

def foundRow (colours marked : Bool) (row : String) : String :=
  "   " ++ (if marked then String.join (row.toList.map (markedLetter colours)) else row) ++ "\n"

def found (colours marked : Bool) (spec : String) (words : List String) (elapsed : String) :
    String :=
  header colours "SEARCH:" spec
    ++ "\n"
    ++ (if words.isEmpty then Style.yellow.paint colours "No words found" ++ "\n"
        else String.join ((columns words wordsPerRow).map (foundRow colours marked)))
    ++ "\n" ++ Style.boldBrightYellow.paint colours (thousands words.length)
    ++ " words in " ++ elapsed ++ "ms\n"

def defined (colours : Bool) (d : WordDefinition) : String :=
  header colours "DEFINE:" d.word
    ++ "\n"
    ++ (if !d.valid then Style.red.paint colours (d.word ++ " is not in the lexicon") ++ "\n"
        else
          match d.definition? with
          | some definition => String.join ((Text.lines definition).map ("   " ++ · ++ "\n"))
          | none => Style.yellow.paint colours "No definition available" ++ "\n")

def groups (colours : Bool) (groups : List WordGroup) : String :=
  if groups.isEmpty then ""
  else
    "\n📂 " ++ Style.boldBrightCyan.paint colours "Groups:" ++ "\n"
      ++ String.join (groups.map fun g => "   " ++ g.name ++ "\n")

def hookWidth : Nat := 4

def described (colours : Bool) (i : WordInfo) : String :=
  header colours "WORD INFO:" i.word
    ++ "\n   " ++ hookedWord i.frontHooks i.word i.backHooks hookWidth ++ "\n"
    ++ "   Status:        "
    ++ (if i.valid then Style.boldGreen.paint colours "acceptable"
        else Style.boldRed.paint colours "not acceptable") ++ "\n"
    ++ "   Alphagram:     " ++ Style.brightYellow.paint colours i.alphagram ++ "\n"
    ++ "   Anagrams:      " ++ toString i.anagrams ++ "\n"
    ++ "   Vowels:        " ++ toString i.vowels ++ "\n"
    ++ "   Unique:        " ++ toString i.uniqueLetters ++ "\n"
    ++ "   Points:        " ++ toString i.points ++ "\n"
    ++ "   Probability:   " ++ oddsText i.probability ++ "\n"
    ++ (match i.rank? with
        | some rank => "   Prob. order:   " ++ thousands rank ++ "\n"
        | none => "")
    ++ groups colours i.groups

end WordFinder.Report
