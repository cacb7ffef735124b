import IndexAccess.Binary64.Basic

/-!
# Rounding to binary64

One function rounds a quotient of natural numbers to the nearest binary64
number, a half to the even mantissa.  Decimal texts, integers and the results
of arithmetic are all exact quotients that go through it.
-/

namespace IndexAccess
namespace Binary64

attribute [local instance] corePower

/-- The natural number nearest to `num / den`, a half going to the even one. -/
def nearestEven (num den : Nat) : Nat :=
  let quotient := num / den
  let twice := 2 * (num % den)
  if twice < den then quotient
  else if den < twice then quotient + 1
  else quotient + quotient % 2

/-- Numerator and denominator of `num / den / 2 ^ scale`. -/
def unitsAt (num den : Nat) (scale : Int) : Nat × Nat :=
  (num * 2 ^ (-scale).toNat, den * 2 ^ scale.toNat)

/-- The scale at which `num / den` has 53 bits before the point, or the least
scale when the quotient is too small for that. -/
def scaleOf (num den : Nat) : Int :=
  let coarse : Int := max ((num.log2 : Int) - den.log2 - 53) (-1074)
  let units := unitsAt num den coarse
  if 2 ^ (53 : Nat) ≤ units.1 / units.2 then coarse + 1 else coarse

/-- A mantissa and scale as a number; a scale beyond the range is an
infinity. -/
def ofParts (negative : Bool) (mantissa : Nat) (scale : Int) : Binary64 :=
  if canonical : Canonical mantissa scale then
    .finite ⟨negative, mantissa, scale, canonical⟩
  else .infinite negative

/-- The number nearest to `± num / den`. -/
def ofRatio (negative : Bool) (num den : Nat) : Binary64 :=
  if num = 0 then .finite (.zero negative)
  else
    let scale := scaleOf num den
    let units := unitsAt num den scale
    let mantissa := nearestEven units.1 units.2
    if mantissa = 2 ^ (53 : Nat) then
      ofParts negative (2 ^ (52 : Nat)) (scale + 1)
    else ofParts negative mantissa scale

/-- The number nearest to `± digits · 10 ^ exponent`.  A number that is surely
beyond the range, on either side, is recognised before any power of ten is
computed. -/
def ofDecimal (negative : Bool) (digits : Nat) (exponent : Int) : Binary64 :=
  if digits = 0 then .finite (.zero negative)
  else if 400 < exponent then .infinite negative
  else if 3 * exponent + digits.log2 < -1100 then .finite (.zero negative)
  else ofRatio negative (digits * 10 ^ exponent.toNat) (10 ^ (-exponent).toNat)

/-- The number nearest to an integer multiple of a power of two. -/
def ofScaled (n : Int) (scale : Int) : Binary64 :=
  ofRatio (n < 0) (n.natAbs * 2 ^ scale.toNat) (2 ^ (-scale).toNat)

/-- The finite number nearest to an integer, if the integer is in range. -/
def ofInt? (i : Int) : Option FiniteBinary64 :=
  match ofScaled i 0 with
  | .finite x => some x
  | _ => none

/-- The difference, rounded; equal numbers differ by positive zero. -/
def sub : Binary64 → Binary64 → Binary64
  | .finite x, .finite y =>
    let scale := min x.scale y.scale
    ofScaled (x.coefficientAt scale - y.coefficientAt scale) scale
  | .infinite a, .infinite b => if a = b then .nan else .infinite a
  | .infinite a, .finite _ => .infinite a
  | .finite _, .infinite b => .infinite !b
  | _, _ => .nan

/-- The product with a positive integer, rounded. -/
def scaleBy (factor : Nat) : Binary64 → Binary64
  | .finite x =>
    ofRatio x.negative (x.mantissa * factor * 2 ^ x.scale.toNat)
      (2 ^ (-x.scale).toNat)
  | x => x

example : ofDecimal false 1 (-1) =
    .finite ⟨false, 7205759403792794, -56, by decide⟩ := by
  decide +kernel

example : ofDecimal false 5 (-324) = .finite ⟨false, 1, -1074, by decide⟩ := by
  decide +kernel

example : ofDecimal true 1 309 = .infinite true := by
  decide +kernel

end Binary64
end IndexAccess
