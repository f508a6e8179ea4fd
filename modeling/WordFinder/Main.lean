import Std.Time
import WordFinder.CommandLine

/-!
# The program

Carries out the script of a command line.
-/
set_option autoImplicit false

namespace WordFinder

/-- A reason as the system words it, with its number. The number of some reasons is negated. -/
def systemReason (code : UInt32) (details : String) : String :=
  details.capitalize ++ " (os error " ++ toString code.toInt32.toInt.natAbs ++ ")"

def fileErrorOf : IO.Error → FileError
  | .noFileOrDirectory .. => .notFound
  | .inappropriateType _ code details | .permissionDenied _ code details =>
    .other (systemReason code details)
  | e => .other (toString e)

def millisecondsText (nanoseconds : Nat) : String :=
  let tenths := (nanoseconds + 50000) / 100000
  toString (tenths / 10) ++ "." ++ toString (tenths % 10)

/-- The records that a level by its name lets through. A text that names no level asks for nothing. -/
def filterOfSetting? (setting : String) : Option (LogRecord → Bool) :=
  match setting.toLower with
  | "off" | "error" => some fun _ => false
  | "warn" => some (·.level == .warn)
  | "info" => some (·.level != .debug)
  | "debug" | "trace" => some fun _ => true
  | _ => none

def timeText : IO String := do
  let now := Std.Time.DateTime.ofTimestampWithZone (← Std.Time.Timestamp.now) .UTC
  return now.format "uuuu-MM-dd'T'HH:mm:ss.SSSSSS'Z'"

/-- Carries out a script. The stopwatch was started at a given time, and the log lets some records
through. -/
def perform (started : Nat) (admits : LogRecord → Bool) : Script → IO UInt32
  | .exit status => return status.toUInt32
  | .print text next => do
    IO.print text
    perform started admits next
  | .printError text next => do
    IO.eprint text
    perform started admits next
  | .read file next => do
    let content ← try
        pure (.ok (← IO.FS.readBinFile file))
      catch e => pure (.error (fileErrorOf e))
    perform started admits (next content)
  | .save file text next => do
    let written ← try
        IO.FS.writeFile file text
        pure (.ok ())
      catch e => pure (.error (fileErrorOf e))
    perform started admits (next written)
  | .startLog verbose next => do
    let setting? ← IO.getEnv "RUST_LOG"
    perform started ((setting?.bind filterOfSetting?).getD (LogRecord.isUsual verbose)) next
  | .log record next => do
    if admits record then IO.print (record.line (← timeText))
    perform started admits next
  | .start next => do perform (← IO.monoNanosNow) admits (next ())
  | .elapsed next => do
    perform started admits (next (millisecondsText ((← IO.monoNanosNow) - started)))

end WordFinder

open WordFinder in
def main (args : List String) : IO UInt32 := do
  let colours ← (← IO.getStdout).isTty
  perform 0 (fun _ => false) (CommandLine.script colours args)
