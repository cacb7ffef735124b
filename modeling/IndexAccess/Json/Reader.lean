import IndexAccess.Json.Fault
import IndexAccess.Number.FractionText
import IndexAccess.Text.Basic
import IndexAccess.Text.Hexadecimal
import IndexAccess.Value.Basic

/-!
# Reading JSON texts

A JSON text is read into a value: objects into dictionaries, arrays into lists,
numbers with a fraction or an exponent into binary64 numbers and others into
integers of any size up to the digit limit.  The words for not-a-number and the
infinities are accepted.  Of several members of one name the last value counts,
at the place of the first.
-/

namespace IndexAccess
namespace Json

/-- What a reader of a part of a text returns: the part and the text after
it. -/
abbrev Reading (α : Type) := Except Fault (α × List CodePoint)

def isBlank : CodePoint → Bool
  | .char c => c == ' ' || c == '\t' || c == '\n' || c == '\r'
  | .surrogate _ => false

def skipBlanks (cs : List CodePoint) : List CodePoint :=
  cs.dropWhile isBlank

/-- The character of an escape that consists of one letter. -/
def letterEscape? : CodePoint → Option Char
  | .char '"' => some '"'
  | .char '\\' => some '\\'
  | .char '/' => some '/'
  | .char 'b' => some '\x08'
  | .char 'f' => some '\x0c'
  | .char 'n' => some '\n'
  | .char 'r' => some '\r'
  | .char 't' => some '\t'
  | _ => none

/-- The number that the digits of a code escape write. -/
def codeOf? (digits : List CodePoint) : Option Nat := do
  Text.readHex? (← digits.mapM CodePoint.char?)

/-- A code point that a string holds as itself. -/
def writtenAs : CodePoint → Text.Written
  | .char c => .code c.toNat
  | .surrogate s => .alone s

/-- Puts something written before what a reading has found. -/
def Reading.cons (first : Text.Written)
    (reading : Reading (List Text.Written)) :
    Reading (List Text.Written) :=
  reading.map fun (written, rest) => (first :: written, rest)

/-- What a string holds up to its closing quote; `start` is the text from the
opening quote on.  A code escape needs some text after its digits. -/
def readWritten (start : List CodePoint) :
    List CodePoint → Reading (List Text.Written)
  | [] => .error (.malformed .unterminatedString start)
  | .char '"' :: rest => .ok ([], rest)
  | [.char '\\'] => .error (.malformed .unterminatedString start)
  | .char '\\' :: .char 'u' :: a :: b :: c :: d :: next :: rest =>
    match codeOf? [a, b, c, d] with
    | some code => .cons (.code code) (readWritten start (next :: rest))
    | none =>
      .error (.malformed .invalidCodeEscape
        ('u' :: a :: b :: c :: d :: next :: rest))
  | .char '\\' :: c :: rest =>
    match letterEscape? c with
    | some escaped => .cons (.code escaped.toNat) (readWritten start rest)
    | none =>
      if c = .char 'u' then .error (.malformed .invalidCodeEscape (c :: rest))
      else .error (.malformed .invalidEscape ('\\' :: c :: rest))
  | c :: rest =>
    if c.code < 0x20 then .error (.malformed .controlCharacter (c :: rest))
    else .cons (writtenAs c) (readWritten start rest)

def readString (start rest : List CodePoint) : Reading Text :=
  (readWritten start rest).map fun (written, rest) =>
    (Text.ofWritten written, rest)

def isDigit : CodePoint → Bool
  | .char c => c.isDigit
  | .surrogate _ => false

/-- The digits at the start of a text. -/
def leadingDigits (cs : List CodePoint) : List Char :=
  (cs.takeWhile isDigit).map CodePoint.toChar

def afterDigits (cs : List CodePoint) : List CodePoint :=
  cs.dropWhile isDigit

/-- The digits before the point: a single zero, or digits that begin with
another one. -/
def splitWhole : List CodePoint → List Char × List CodePoint
  | .char '0' :: rest => (['0'], rest)
  | cs => (leadingDigits cs, afterDigits cs)

/-- The digits after a point that is followed by a digit. -/
def splitFraction? : List CodePoint → Option (List Char × List CodePoint)
  | .char '.' :: rest =>
    if (leadingDigits rest).isEmpty then none
    else some (leadingDigits rest, afterDigits rest)
  | _ => none

def splitMinus : List CodePoint → Bool × List CodePoint
  | .char '-' :: rest => (true, rest)
  | cs => (false, cs)

def splitSign : List CodePoint → Bool × List CodePoint
  | .char '+' :: rest => (false, rest)
  | cs => splitMinus cs

/-- An exponent that has at least one digit. -/
def splitExponent? : List CodePoint → Option (Int × List CodePoint)
  | c :: rest =>
    let (negative, body) := splitSign rest
    if (c = .char 'e' ∨ c = .char 'E') ∧ leadingDigits body ≠ [] then
      some (Number.withSign negative
        (Nat.ofDigitChars 10 (leadingDigits body) 0), afterDigits body)
    else none
  | [] => none

/-- The integer that digits write, if they are not too many. -/
def integerOfDigits (negative : Bool) (digits : List Char) :
    Except Fault Value :=
  if Number.digitLimit < digits.length then
    .error (.tooManyDigits digits.length)
  else .ok (.integer (Number.withSign negative (Nat.ofDigitChars 10 digits 0)))

/-- A number.  A point or an exponent without digits is left for the text after
the number. -/
def readNumber (cs : List CodePoint) : Reading Value :=
  let (negative, body) := splitMinus cs
  let (whole, afterWhole) := splitWhole body
  if whole.isEmpty then .error (.malformed .expectedValue cs)
  else
    let fraction? := splitFraction? afterWhole
    let afterFraction := (fraction?.map (·.2)).getD afterWhole
    let exponent? := splitExponent? afterFraction
    let rest := (exponent?.map (·.2)).getD afterFraction
    if fraction?.isNone && exponent?.isNone then
      (integerOfDigits negative whole).map fun value => (value, rest)
    else
      let fraction := (fraction?.map (·.1)).getD []
      let exponent := (exponent?.map (·.1)).getD 0
      .ok (.number (Number.ofDigits negative whole fraction exponent), rest)

def words : List (List Char × Value) := [
  (['n', 'u', 'l', 'l'], .null),
  (['t', 'r', 'u', 'e'], .boolean true),
  (['f', 'a', 'l', 's', 'e'], .boolean false),
  (['N', 'a', 'N'], .number .nan),
  (['I', 'n', 'f', 'i', 'n', 'i', 't', 'y'], .number (.infinite false)),
  (['-', 'I', 'n', 'f', 'i', 'n', 'i', 't', 'y'], .number (.infinite true))]

/-- A word, or else a number. -/
def readPlain (cs : List CodePoint) : Reading Value :=
  match words.find? fun word => (CodePoint.ofChars word.1).isPrefixOf cs with
  | some (word, value) => .ok (value, cs.drop word.length)
  | none => readNumber cs

/-- The name of a member and the text after its colon. -/
def readName : List CodePoint → Except Fault (Text × List CodePoint)
  | .char '"' :: rest => do
    let (name, afterName) ← readString ('"' :: rest) rest
    match skipBlanks afterName with
    | .char ':' :: body => .ok (name, skipBlanks body)
    | other => .error (.malformed .expectedColon other)
  | other => .error (.malformed .expectedName other)

def dictOf (members : List (Text × Value)) : Value :=
  .dict ((Entries.ofList members).map fun (name, value) => (.text name, value))

mutual

/-- A value at the start of a text.  Every level of nesting and every member
takes one unit of `fuel`. -/
def readValue : (fuel : Nat) → List CodePoint → Reading Value
  | 0, cs => .error (.malformed .expectedValue cs)
  | fuel + 1, cs =>
    match cs with
    | .char '"' :: rest => (readString cs rest).map fun (t, rest) =>
      (.text t, rest)
    | .char '{' :: rest => readObject fuel (skipBlanks rest)
    | .char '[' :: rest => readArray fuel (skipBlanks rest)
    | _ => readPlain cs

def readObject : (fuel : Nat) → List CodePoint → Reading Value
  | _, .char '}' :: rest => .ok (dictOf [], rest)
  | 0, cs => .error (.malformed .expectedName cs)
  | fuel + 1, cs => (readMembers fuel cs).map fun (members, rest) =>
    (dictOf members, rest)

/-- The members of an object and its closing brace. -/
def readMembers : (fuel : Nat) → List CodePoint →
    Except Fault (List (Text × Value) × List CodePoint)
  | 0, cs => .error (.malformed .expectedName cs)
  | fuel + 1, cs => do
    let (name, body) ← readName cs
    let (value, afterValue) ← readValue fuel body
    match skipBlanks afterValue with
    | .char '}' :: rest => .ok ([(name, value)], rest)
    | .char ',' :: rest => do
      let (members, rest) ← readMembers fuel (skipBlanks rest)
      return ((name, value) :: members, rest)
    | other => .error (.malformed .expectedComma other)

def readArray : (fuel : Nat) → List CodePoint → Reading Value
  | _, .char ']' :: rest => .ok (.list [], rest)
  | 0, cs => .error (.malformed .expectedValue cs)
  | fuel + 1, cs => (readItems fuel cs).map fun (items, rest) =>
    (.list items, rest)

/-- The items of an array and its closing bracket. -/
def readItems : (fuel : Nat) → List CodePoint →
    Except Fault (List Value × List CodePoint)
  | 0, cs => .error (.malformed .expectedValue cs)
  | fuel + 1, cs => do
    let (value, afterValue) ← readValue fuel cs
    match skipBlanks afterValue with
    | .char ']' :: rest => .ok ([value], rest)
    | .char ',' :: rest => do
      let (items, rest) ← readItems fuel (skipBlanks rest)
      return (value :: items, rest)
    | other => .error (.malformed .expectedComma other)

end

def readDocument (document : Text) : Except Fault Value :=
  match document.points with
  | .char '\ufeff' :: _ => .error (.malformed .byteOrderMark document.points)
  | points => do
    let (value, rest) ← readValue (3 * points.length + 3) (skipBlanks points)
    match skipBlanks rest with
    | [] => .ok value
    | other => .error (.malformed .extraData other)

end Json
end IndexAccess
