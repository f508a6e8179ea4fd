import WordFinder.CommandLine.Error
import WordFinder.Log

/-!
# Scripts

A script says what the command line does with the world, step by step: print, log, read a file, save
a file, measure a time, and exit. What a script does in a given world is plain data. The lines of the
log go to standard output among what is printed.
-/
set_option autoImplicit false

namespace WordFinder

inductive Script where
  | exit (status : Nat)
  | print (text : String) (next : Script)
  | printError (text : String) (next : Script)
  | read (file : String) (next : Except FileError ByteArray → Script)
  | save (file text : String) (next : Except FileError Unit → Script)
  /-- Starts the log; before that nothing is logged. -/
  | startLog (verbose : Bool) (next : Script)
  | log (record : LogRecord) (next : Script)
  /-- Starts the stopwatch before what follows is worked out. -/
  | start (next : Unit → Script)
  /-- Reads the stopwatch, in milliseconds. -/
  | elapsed (next : String → Script)

/-- What a script meets: the bytes of each file, whether a file can be saved, the time that a
stopwatch shows, and what the log does with a record. -/
structure World where
  content : String → Except FileError ByteArray
  writable : String → Except FileError Unit
  stopwatch : String
  /-- The records that the environment lets through, where it says so. -/
  logFilter? : Option (LogRecord → Bool)
  /-- The time of each line of the log, by the number of lines before it. -/
  clock : Nat → String
  /-- How a record reads as a line at a time. -/
  logLine : String → LogRecord → String

/-- The log of a run: which records it lets through, and how many lines it has. -/
structure Log where
  admits : LogRecord → Bool := fun _ => false
  lines : Nat := 0

structure Outcome where
  status : Nat
  output : String := ""
  errors : String := ""
  /-- The files saved, in order, with their texts. -/
  saved : List (String × String) := []
deriving DecidableEq, Repr

namespace Script

def runFrom (w : World) : Log → Script → Outcome
  | _, exit status => { status }
  | l, print text next => let o := next.runFrom w l; { o with output := text ++ o.output }
  | l, printError text next => let o := next.runFrom w l; { o with errors := text ++ o.errors }
  | l, read file next => (next (w.content file)).runFrom w l
  | l, save file text next =>
    let o := (next (w.writable file)).runFrom w l
    match w.writable file with
    | .ok _ => { o with saved := (file, text) :: o.saved }
    | .error _ => o
  | l, startLog verbose next =>
    next.runFrom w { l with admits := w.logFilter?.getD (LogRecord.isUsual verbose) }
  | l, log record next =>
    if l.admits record then
      let o := next.runFrom w { l with lines := l.lines + 1 }
      { o with output := w.logLine (w.clock l.lines) record ++ o.output }
    else next.runFrom w l
  | l, start next => (next ()).runFrom w l
  | l, elapsed next => (next w.stopwatch).runFrom w l

def run (w : World) (s : Script) : Outcome :=
  s.runFrom w {}

def logAll (records : List LogRecord) (next : Script) : Script :=
  records.foldr log next

def fail (e : CommandError) : Script :=
  printError e.report (exit 1)

def readText (file : String) (next : Except FileError String → Script) : Script :=
  read file fun content => next (content.bind textOfBytes)

end Script

end WordFinder
