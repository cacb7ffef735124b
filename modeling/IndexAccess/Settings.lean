import IndexAccess.Log.Record
import IndexAccess.Text.Blank
import IndexAccess.Text.Capital
import IndexAccess.Value.Conversion

/-!
# Settings

Two variables of the environment set the log level and the indent of printed
documents.  A variable that is absent or blank leaves the default.  A log level
is a name, in any case of letters, or a number; an indent is a number, and zero
asks for documents on one line.
-/

namespace IndexAccess

abbrev Environment := List (String × String)

namespace Environment

/-- Why a variable cannot be set: names and values hold no null character, and
a name is not empty and holds no equals sign. -/
def variableFault? (name value : String) : Option ValueFailure :=
  if name.toList.contains '\x00' || value.toList.contains '\x00' then
    some .nullCharacter
  else if name.toList.contains '=' then some .equalsSignInName
  else if name.isEmpty then some (.system .invalidArgument)
  else none

/-- Refuses an environment with a variable that cannot be set. -/
def requireSettable (environment : Environment) : Except Failure Unit :=
  match environment.findSome? fun (name, value) =>
    variableFault? name value with
  | some failure => .error (.value failure)
  | none => .ok ()

end Environment

structure Settings where
  logLevel : Int
  indent : Option Nat
deriving DecidableEq, Repr

namespace Settings

def levelVariable : String := "JSONINDEX_LOG_LEVEL"

def indentVariable : String := "JSONINDEX_JSON_INDENT"

/-- A setting that is present and not blank. -/
def given? (raw : Option String) : Option String :=
  raw.filter fun text => !(Text.trim text).isEmpty

/-- The level of a text in capitals: a number, or one of the names. -/
def levelOf (raw text : String) : Except Failure Int :=
  if !text.isEmpty && text.toList.all Text.isDigitLike then
    Value.integerOfText text
  else
    match Log.Level.named.lookup text with
    | some level => .ok level
    | none => .error (.value (.invalidLogLevel (Text.quoted raw)))

def readLevel (raw : Option String) : Except Failure Int :=
  match given? raw with
  | none => .ok Log.Level.info
  | some text => levelOf text (Text.capital (Text.trim text))

/-- An integer as an indent. -/
def indentOf (i : Int) : Except Failure (Option Nat) :=
  if i < 0 then .error (.value (.negativeIndent (Number.integerText i)))
  else if i = 0 then .ok none
  else .ok (some i.toNat)

def readIndent (raw : Option String) : Except Failure (Option Nat) :=
  match given? raw with
  | none => .ok (some 2)
  | some text =>
    match Number.readInteger text with
    | .ok i => indentOf i
    | .error _ => .error (.value (.invalidIndent (Text.quoted text)))

/-- Reads the settings from an environment; the log level is judged first. -/
def load (environment : Environment) : Except Failure Settings := do
  let logLevel ← readLevel (environment.lookup levelVariable)
  let indent ← readIndent (environment.lookup indentVariable)
  return { logLevel, indent }

end Settings
end IndexAccess
