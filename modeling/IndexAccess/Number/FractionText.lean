import IndexAccess.Binary64.Rounding
import IndexAccess.Number.IntegerText

/-!
# Binary64 numbers as text

The text of a binary64 number has an optional sign, digits with an optional
point among them, and an optional exponent; or it is one of the words for an
infinity and not-a-number, in any case of letters.  Underscores stand between
two digits only.
-/

namespace IndexAccess
namespace Number

/-- Drops the underscores of a text in which each stands between two digits. -/
def dropUnderscores? : (previous : Char) → List Char → Option (List Char)
  | _, [] => some []
  | previous, '_' :: c :: rest =>
    if previous.isDigit && c.isDigit then
      (dropUnderscores? c rest).map (c :: ·)
    else none
  | _, '_' :: [] => none
  | _, c :: rest => (dropUnderscores? c rest).map (c :: ·)

/-- An exponent with its sign; no exponent is zero. -/
def readExponent? : List Char → Option Int
  | [] => some 0
  | c :: rest =>
    let (negative, digits) := splitSign rest
    if (c == 'e' || c == 'E') && !digits.isEmpty &&
        digits.all Char.isDigit then
      some (withSign negative (Nat.ofDigitChars 10 digits 0))
    else none

/-- The digits after a point, if there is a point, and the text after them. -/
def splitFraction : List Char → List Char × List Char
  | '.' :: rest => (rest.takeWhile Char.isDigit, rest.dropWhile Char.isDigit)
  | cs => ([], cs)

/-- The number with the given digits before and after the point. -/
def ofDigits (negative : Bool) (whole fraction : List Char)
    (exponent : Int) : Binary64 :=
  .ofDecimal negative (Nat.ofDigitChars 10 (whole ++ fraction) 0)
    (exponent - fraction.length)

/-- Reads digits with an optional point and exponent. -/
def readUnsigned? (negative : Bool) (cs : List Char) : Option Binary64 :=
  let whole := cs.takeWhile Char.isDigit
  let (fraction, rest) := splitFraction (cs.dropWhile Char.isDigit)
  if whole.isEmpty && fraction.isEmpty then none
  else (readExponent? rest).map (ofDigits negative whole fraction)

/-- Reads a number from ASCII text without blanks and underscores. -/
def readSigned? (cs : List Char) : Option Binary64 :=
  let (negative, body) := splitSign cs
  let word := String.ofList (body.map Char.toLower)
  if word = "inf" ∨ word = "infinity" then some (.infinite negative)
  else if word = "nan" then some .nan
  else readUnsigned? negative body

def readAsciiBinary64? (cs : List Char) : Option Binary64 :=
  (dropUnderscores? ' ' (Text.trimBoth Text.isAsciiBlank cs)).bind readSigned?

def readBinary64? (s : String) : Option Binary64 :=
  readAsciiBinary64? (asciiText s.toList)

example : readBinary64? " -0.0 " = some (.finite (.zero true)) := by
  decide +kernel
example : readBinary64? "1_0e-1" =
    some (.finite ⟨false, 2 ^ 52, -52, by decide⟩) := by
  decide +kernel
example : readBinary64? "1e" = none := by decide +kernel
example : readBinary64? "-Infinity" = some (.infinite true) := by
  decide +kernel

end Number
end IndexAccess
