import IndexAccess.Binary64.Shortest

/-!
# Writing binary64 numbers

A number is written with its shortest digits.  A layout says which decimal
exponents are written with the digits around a point, and how an exponent is
written otherwise.
-/

namespace IndexAccess
namespace Binary64

/-- The decisions of a written form that the digits leave open. -/
structure Layout where
  leastPositional : Int
  beyondPositional : Int
  exponentDigits : Nat
  infinity : String
  notANumber : String
deriving Repr

/-- Numbers from `1e-4` up to `1e16` are written around a point and keep at
least one digit after it; an exponent has a sign and at least two digits. -/
def Layout.plain : Layout where
  leastPositional := -4
  beyondPositional := 16
  exponentDigits := 2
  infinity := "inf"
  notANumber := "nan"

/-- Digits without the zeros at their end. -/
def dropTrailingZeros (digits : List Char) : List Char :=
  (digits.reverse.dropWhile (· == '0')).reverse

/-- Digits around a point, the leading digit having the given exponent. -/
def positional (digits : List Char) (exponent : Int) : List Char :=
  if exponent < 0 then
    '0' :: '.' :: List.replicate (-exponent - 1).toNat '0' ++ digits
  else
    let whole := digits.take (exponent.toNat + 1)
    let fraction := digits.drop (exponent.toNat + 1)
    whole ++ List.replicate (exponent.toNat + 1 - digits.length) '0' ++
      '.' :: if fraction.isEmpty then ['0'] else fraction

/-- One digit, the others after a point if there are any, and an exponent. -/
def scientific (layout : Layout) (digits : List Char)
    (exponent : Int) : List Char :=
  let power := Nat.toDigits 10 exponent.natAbs
  let fraction := digits.drop 1
  digits.take 1 ++ (if fraction.isEmpty then [] else '.' :: fraction) ++
    'e' :: (if exponent < 0 then '-' else '+') ::
      List.replicate (layout.exponentDigits - power.length) '0' ++ power

def positiveText (layout : Layout) (x : FiniteBinary64) : List Char :=
  let decimal := shortest x
  let written := Nat.toDigits 10 decimal.digits
  let exponent := decimal.exponent + written.length - 1
  let digits := dropTrailingZeros written
  if layout.leastPositional ≤ exponent ∧
      exponent < layout.beyondPositional then
    positional digits exponent
  else scientific layout digits exponent

/-- A finite number in the layout; zero keeps its sign. -/
def finiteText (layout : Layout) (x : FiniteBinary64) : List Char :=
  (if x.negative then ['-'] else []) ++
    if x.isZero then ['0', '.', '0'] else positiveText layout x

def write (layout : Layout) : Binary64 → String
  | .finite x => String.ofList (finiteText layout x)
  | .infinite negative => (if negative then "-" else "") ++ layout.infinity
  | .nan => layout.notANumber

def text (x : Binary64) : String :=
  x.write .plain

example : (ofDecimal false 1 (-1)).text = "0.1" := by decide +kernel
example : (ofDecimal false 1 16).text = "1e+16" := by decide +kernel
example : (ofDecimal false 1 (-5)).text = "1e-05" := by decide +kernel
example : (ofDecimal true 0 0).text = "-0.0" := by decide +kernel
example : (ofDecimal false 5 (-324)).text = "5e-324" := by decide +kernel

end Binary64
end IndexAccess
