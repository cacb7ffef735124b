import IndexAccess.Text.Basic

/-!
# Faults of JSON texts

A fault names what is wrong and the text that remains where it was found.  The
place of a fault is counted in code points from the start of the text; lines
end at line feeds only.
-/

namespace IndexAccess
namespace Json

inductive FaultKind where
  | byteOrderMark
  | expectedValue
  | expectedName
  | expectedColon
  | expectedComma
  | unterminatedString
  | controlCharacter
  | invalidEscape
  | invalidCodeEscape
  | extraData
deriving DecidableEq, Repr

def FaultKind.message : FaultKind → String
  | byteOrderMark => "Unexpected UTF-8 BOM (decode using utf-8-sig)"
  | expectedValue => "Expecting value"
  | expectedName => "Expecting property name enclosed in double quotes"
  | expectedColon => "Expecting ':' delimiter"
  | expectedComma => "Expecting ',' delimiter"
  | unterminatedString => "Unterminated string starting at"
  | controlCharacter => "Invalid control character at"
  | invalidEscape => "Invalid \\escape"
  | invalidCodeEscape => "Invalid \\uXXXX escape"
  | extraData => "Extra data"

/-- Why a text is not read: it is malformed where `rest` remains, or it holds
an integer with too many digits. -/
inductive Fault where
  | malformed (kind : FaultKind) (rest : List CodePoint)
  | tooManyDigits (count : Nat)
deriving DecidableEq

/-- A place in a text; lines and columns count from one. -/
structure Place where
  line : Nat
  column : Nat
  position : Nat
deriving DecidableEq, Repr

def Place.after (before : List CodePoint) : Place where
  line := before.count (.char '\n') + 1
  column := (before.reverse.takeWhile (· != .char '\n')).length + 1
  position := before.length

/-- What is wrong with a document, and where. -/
def faultMessage (document : Text) (kind : FaultKind)
    (rest : List CodePoint) : String :=
  let place := Place.after
    (document.points.take (document.length - rest.length))
  s!"{kind.message}: line {place.line} column {place.column} (char {place.position})"

end Json
end IndexAccess
