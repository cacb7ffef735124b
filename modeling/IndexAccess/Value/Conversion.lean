import IndexAccess.Number.FractionText
import IndexAccess.Value.Display

/-!
# Conversions of values

A leaf converts its argument to the scalar it holds: to text, to an integer, to
a finite number, or to a truth value.  Texts and byte strings are read as
numbers are written; numbers lose their fraction when they become integers.
-/

namespace IndexAccess
namespace Value

/-- The text of a value: a text itself, a mapping as its dictionary, and
anything else as it is shown. -/
def toText : Value → Except Failure Text
  | text t => .ok t
  | mapping entries => do return (← (dict entries).display)
  | v => do return (← v.display)

/-- The first characters of a text that is too long for a message. -/
def abridged (s : String) : String :=
  String.ofList (s.toList.take 200)

/-- Bytes as characters, for reading a number in them. -/
def bytesAsText (bytes : List UInt8) : List Char :=
  bytes.map fun byte => Char.ofNat byte.toNat

/-- The outcome of reading an integer; the text that was read appears in a
message in its shown form. -/
def integerOutcome (shown : String) :
    Except Number.IntegerFault Int → Except Failure Int
  | .ok i => .ok i
  | .error .malformed => .error (.value (.invalidInteger (abridged shown)))
  | .error (.tooManyDigits count) => .error (.value (.tooManyDigits count))

def integerOfText (t : Text) : Except Failure Int :=
  integerOutcome t.quoted (Number.readInteger t.toString)

def integerOfBytes (bytes : List UInt8) : Except Failure Int :=
  integerOutcome (Text.quotedBytes (bytes.take 200))
    (Number.readAsciiInteger (bytesAsText bytes))

def integerOfNumber : Binary64 → Except Failure Int
  | .finite x => .ok x.truncate
  | .infinite _ => .error (.value .integerOfInfinity)
  | .nan => .error (.value .integerOfNotANumber)

def toInteger : Value → Except Failure Int
  | boolean b => .ok (if b then 1 else 0)
  | integer i => .ok i
  | number x => integerOfNumber x
  | text t => integerOfText t
  | bytes b => integerOfBytes b
  | foreign .byteArray => integerOfBytes []
  | v => .error (.value (.noInteger v.classOf))

def numberOfInteger (i : Int) : Except Failure Binary64 :=
  match Binary64.ofInt? i with
  | some x => .ok (.finite x)
  | none => .error (.value .integerOutOfRange)

def numberOutcome (shown : String) : Option Binary64 → Except Failure Binary64
  | some x => .ok x
  | none => .error (.value (.invalidNumber shown))

def toNumber : Value → Except Failure Binary64
  | boolean b => numberOfInteger (if b then 1 else 0)
  | integer i => numberOfInteger i
  | number x => .ok x
  | text t => numberOutcome t.quoted (Number.readBinary64? t.toString)
  | bytes b =>
    numberOutcome (Text.quotedBytes b)
      (Number.readAsciiBinary64? (bytesAsText b))
  | foreign .byteArray => numberOutcome (foreign .byteArray).shown none
  | v => .error (.value (.noNumber v.classOf))

end Value
end IndexAccess
