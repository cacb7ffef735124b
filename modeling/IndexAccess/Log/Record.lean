/-!
# Log records

A record has a level and a text.  Levels are numbers; seven of them have names,
and any other level is shown by its number.
-/

namespace IndexAccess
namespace Log

namespace Level

def debug : Nat := 10
def verbose : Nat := 15
def info : Nat := 20
def warning : Nat := 30
def error : Nat := 40
def critical : Nat := 50

def name (level : Int) : String :=
  if level = 0 then "NOTSET"
  else if level = debug then "DEBUG"
  else if level = verbose then "VERBOSE"
  else if level = info then "INFO"
  else if level = warning then "WARNING"
  else if level = error then "ERROR"
  else if level = critical then "CRITICAL"
  else s!"Level {level}"

/-- The levels that settings know by name. -/
def named : List (String × Nat) := [("CRITICAL", critical),
  ("FATAL", critical), ("ERROR", error), ("WARNING", warning),
  ("WARN", warning), ("INFO", info), ("DEBUG", debug), ("VERBOSE", verbose),
  ("NOTSET", 0)]

end Level

structure Record where
  level : Int
  text : String
deriving DecidableEq, Repr

end Log
end IndexAccess
