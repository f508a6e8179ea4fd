import WordFinder.Text.Blank
import WordFinder.Text.Case

/-!
# Word lists

A word list has one word a line, which its definition may follow. Empty lines and lines that start
with `#` hold no word.
-/
set_option autoImplicit false

namespace WordFinder

structure WordListEntry where
  word : String
  /-- The rest of the line, its words one space apart. -/
  definition : String
deriving DecidableEq, Repr

namespace WordListEntry

def ofLine? (line : String) : Option WordListEntry :=
  match Text.words line with
  | [] => none
  | word :: rest =>
    if word.startsWith "#" then none else some ⟨Text.fullUpper word, " ".intercalate rest⟩

def ofText (text : String) : List WordListEntry :=
  (Text.lines text).filterMap ofLine?

end WordListEntry

end WordFinder
