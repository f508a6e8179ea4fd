/-!
# The log

What the program logs while it works: the words and stems it skips, what it has imported, and how it
has answered a search. A record has a level, the part of the program it comes from, a message and
named values. Which records are let through, and how a record reads as a line, is up to the log.
-/
set_option autoImplicit false

namespace WordFinder

inductive LogLevel where
  | debug
  | info
  | warn
deriving DecidableEq, Repr

def LogLevel.name : LogLevel → String
  | debug => "DEBUG"
  | info => "INFO"
  | warn => "WARN"

structure LogRecord where
  level : LogLevel
  target : String
  message : String
  fields : List (String × String)
deriving DecidableEq, Repr

namespace LogRecord

def ofEngine (level : LogLevel) (message : String) (fields : List (String × String)) : LogRecord :=
  { level, target := "lexicon_search::engine::word_engine", message, fields }

def ofOptimizer (level : LogLevel) (message : String) (fields : List (String × String)) :
    LogRecord :=
  { level, target := "lexicon_search::search::spec", message, fields }

/-- Whether a record is let through where nothing else is asked for: all of them in a verbose log, else
warnings only. -/
def isUsual (verbose : Bool) (r : LogRecord) : Bool :=
  verbose || r.level == .warn

/-- The line of a record at a time, without colours. The levels stand right-aligned in a column. -/
def line (time : String) (r : LogRecord) : String :=
  let level := "".pushn ' ' (5 - r.level.name.length) ++ r.level.name
  " ".intercalate ([time, level, r.message] ++ r.fields.map fun (name, value) => name ++ "=" ++ value)
    ++ "\n"

end LogRecord

end WordFinder
