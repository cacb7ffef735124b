import IndexAccess.Number.Power
import IndexAccess.Text.Blank
import IndexAccess.Text.Numeral

/-!
# Integers as text

The text of an integer is an optional sign and decimal digits, with single
underscores allowed between digits and blanks around it.  Digits of any script
and blanks outside ASCII are brought to ASCII first.  Neither reading nor
writing goes beyond `digitLimit` digits.
-/

namespace IndexAccess
namespace Number

attribute [local instance] corePower

/-- An integer of more decimal digits is neither read nor written. -/
def digitLimit : Nat := 4300

inductive IntegerFault where
  | malformed
  | tooManyDigits (count : Nat)
deriving DecidableEq, Repr

/-- The ASCII form of one character of a number; a character that no number
holds becomes a question mark. -/
def asciiForm (c : Char) : Char :=
  if c.toNat < 127 then c
  else if Text.isBlank c then ' '
  else
    match Text.decimalValue? c with
    | some value => value.digitChar
    | none => '?'

def asciiText (cs : List Char) : List Char :=
  if cs.all (·.toNat < 128) then cs else cs.map asciiForm

/-- Whether what follows a digit is more digits, each after at most one
underscore. -/
def continuesDigits : List Char → Bool
  | [] => true
  | '_' :: c :: rest => c.isDigit && continuesDigits rest
  | c :: rest => c.isDigit && continuesDigits rest

/-- Digits with single underscores between them. -/
def isDigitRun : List Char → Bool
  | [] => false
  | c :: rest => c.isDigit && continuesDigits rest

def splitSign : List Char → Bool × List Char
  | '-' :: rest => (true, rest)
  | '+' :: rest => (false, rest)
  | cs => (false, cs)

def withSign (negative : Bool) (magnitude : Nat) : Int :=
  if negative then -(magnitude : Int) else magnitude

/-- Reads an integer from ASCII text.  The number of digits is judged before
what follows them. -/
def readAsciiInteger (cs : List Char) : Except IntegerFault Int :=
  let (negative, body) := splitSign (cs.dropWhile Text.isAsciiBlank)
  let run := body.takeWhile fun c => c.isDigit || c == '_'
  let rest := body.dropWhile fun c => c.isDigit || c == '_'
  let digits := run.filter Char.isDigit
  if !isDigitRun run then .error .malformed
  else if digitLimit < digits.length then .error (.tooManyDigits digits.length)
  else if !rest.all Text.isAsciiBlank then .error .malformed
  else .ok (withSign negative (Nat.ofDigitChars 10 digits 0))

def readInteger (s : String) : Except IntegerFault Int :=
  readAsciiInteger (asciiText s.toList)

/-- Whether an integer has few enough digits to be written. -/
def isWritable (i : Int) : Bool :=
  i.natAbs < 10 ^ digitLimit

def integerText (i : Int) : String :=
  if i < 0 then "-" ++ Nat.repr i.natAbs else Nat.repr i.natAbs

theorem isWritable_iff (i : Int) :
    isWritable i = true ↔ (Nat.toDigits 10 i.natAbs).length ≤ digitLimit := by
  rw [Nat.length_toDigits_le_iff (by decide) (by decide)]
  simp [isWritable]

example : readInteger " +1_0 " = .ok 10 := by rfl
example : readInteger "1__0" = .error .malformed := by rfl
example : readInteger "٣" = .ok 3 := by rfl

end Number
end IndexAccess
