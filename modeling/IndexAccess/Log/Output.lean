import IndexAccess.Binary64.Rounding
import IndexAccess.Settings

/-!
# Written log records

Once logging is set up, a record is written when its level is positive and at
least the level of the setup; it is preceded by the milliseconds since the
setup and by the name of its level.  Before that, warnings and more severe
records are written bare.
-/

namespace IndexAccess
namespace Log

attribute [local instance] corePower

inductive Output where
  | bare
  | timed (level : Int)
deriving DecidableEq, Repr

namespace Output

def level : Output → Int
  | bare => Level.warning
  | timed level => level

def accepts (out : Output) (record : Record) : Bool :=
  0 < record.level && out.level ≤ record.level

/-- Milliseconds as they are shown: in eight columns, or in as many as they
need from ten million on. -/
def shownElapsed (milliseconds : Int) : String :=
  let digits := Number.integerText milliseconds
  let width := if milliseconds < 10 ^ (7 : Nat) then 8 else 0
  let blanks := String.ofList (List.replicate (width - digits.length) ' ')
  s!"[{blanks}{digits}ms]"

def line (out : Output) (milliseconds : Int) (record : Record) : String :=
  match out with
  | bare => s!"{record.text}\n"
  | timed _ =>
    s!"{shownElapsed milliseconds} {Level.name record.level} {record.text}\n"

/-- The text that is written for records that all come at one time. -/
def written (out : Output) (milliseconds : Int)
    (records : List Record) : String :=
  String.join ((records.filter out.accepts).map (out.line milliseconds))

/-- Logging as it is set up: a flag for debugging goes before one for more
records, and both go before the settings. -/
def setup (environment : Environment) (debug verbose : Bool) :
    Except Failure Output :=
  if debug then .ok (timed Level.debug)
  else if verbose then .ok (timed Level.verbose)
  else do
    let settings ← Settings.load environment
    return timed settings.logLevel

end Output

/-- The milliseconds between two times in seconds, as an integer. -/
def elapsedMilliseconds (start now : Binary64) : Except Failure Int :=
  Value.integerOfNumber ((now.sub start).scaleBy 1000)

/-- The text that is written for records that come at their own times in
seconds.  A record whose time has no milliseconds is not written. -/
def Output.stamped (out : Output) (start : Binary64)
    (records : List (Record × Binary64)) :
    String :=
  String.join (records.filterMap fun (record, now) =>
    if out.accepts record then
      (elapsedMilliseconds start now).toOption.map fun elapsed =>
        out.line elapsed record
    else none)

end Log
end IndexAccess
