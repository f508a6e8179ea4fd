import WordFinder.SavedSearch.Reader
import WordFinder.Tile.Distribution

/-!
# Errors of the command line

Why a command failed, as a chain of messages: what could not be done, then what stood in the way.
-/
set_option autoImplicit false

namespace WordFinder

/-- Why a file could not be read or written. -/
inductive FileError where
  | notFound
  | notText
  /-- Any other reason, as the system words it. -/
  | other (reason : String)
deriving DecidableEq, Repr

def FileError.message : FileError → String
  | notFound => "No such file or directory (os error 2)"
  | notText => "stream did not contain valid UTF-8"
  | other reason => reason

def textOfBytes (bytes : ByteArray) : Except FileError String :=
  match String.fromUTF8? bytes with
  | some text => .ok text
  | none => .error .notText

inductive CommandError where
  | invalidDistribution (cause : DistributionError)
  | noWordList
  | importFailed (file : String) (cause : FileError)
  | invalidLength (text : String) (cause : Text.NumeralError)
  | noConditions
  | searchUnreadable (file : String) (cause : FileError)
  | searchMalformed (file : String) (cause : SavedSearchError)
  | searchUnwritable (file : String) (cause : FileError)
deriving DecidableEq, Repr

/-- What is said of a word list or stem list that could not be read. -/
def importMessage (file : String) (cause : FileError) : String :=
  "can't open file '" ++ file ++ "': " ++ cause.message

namespace CommandError

def message : CommandError → String
  | invalidDistribution _ => "invalid letter distribution"
  | noWordList => "no word list given, use --wordlist <FILE>"
  | importFailed file cause => importMessage file cause
  | invalidLength text _ => "invalid length '" ++ text ++ "'"
  | noConditions => "no search conditions given"
  | searchUnreadable file _ => "failed to read search file '" ++ file ++ "'"
  | searchMalformed file _ => "failed to parse search file '" ++ file ++ "'"
  | searchUnwritable file _ => "failed to write search file '" ++ file ++ "'"

def causes : CommandError → List String
  | invalidDistribution cause => [cause.message]
  | importFailed _ cause => [cause.message]
  | invalidLength _ cause => [cause.message]
  | searchUnreadable _ cause => [cause.message]
  | searchMalformed _ cause => [cause.message]
  | searchUnwritable _ cause => [cause.message]
  | noWordList | noConditions => []

def line (e : CommandError) : String :=
  ": ".intercalate (e.message :: e.causes)

def indented (cause : String) : String :=
  "    " ++ "\n    ".intercalate (Text.splitOn "\n" cause)

def report (e : CommandError) : String :=
  "Error: " ++ e.message
    ++ (if e.causes.isEmpty then "" else
      "\n\nCaused by:\n" ++ "\n".intercalate (e.causes.map indented))
    ++ "\n"

end CommandError

end WordFinder
