import IndexAccess.Binary64.Rounding

/-!
# The shortest decimal of a binary64 number

The numbers that round to a given finite number form an interval.  Of the
decimals in that interval the shortest is chosen, and of two of the same length
the one nearer to the number.  For each length the only candidates are the two
neighbours of the number on the decimal grid of that length.  Whatever the
search finds rounds to the number: a grid point is taken only if it lies in the
interval, and a search without a hit would end with the number's exact decimal.
-/

namespace IndexAccess
namespace Binary64

attribute [local instance] corePower

/-- A positive decimal `digits · 10 ^ exponent`. -/
structure Decimal where
  digits : Nat
  exponent : Int
deriving DecidableEq, Repr

/-- A positive number and the ends of its rounding interval, over one common
denominator; `closed` when the ends themselves round to the number. -/
structure Interval where
  lower : Nat
  value : Nat
  upper : Nat
  denominator : Nat
  closed : Bool

/-- The rounding interval of a positive number.  The gap below a power of two
is half the gap above it. -/
def Interval.of (x : FiniteBinary64) : Interval :=
  let quarter := x.scale - 2
  let unit := 2 ^ quarter.toNat
  let gapBelow :=
    if x.mantissa = 2 ^ (52 : Nat) ∧ x.scale ≠ -1074 then 1 else 2
  { lower := (4 * x.mantissa - gapBelow) * unit
    value := 4 * x.mantissa * unit
    upper := (4 * x.mantissa + 2) * unit
    denominator := 2 ^ (-quarter).toNat
    closed := x.mantissa % 2 == 0 }

namespace Interval

/-- Whether `digits · 10 ^ exponent` rounds to the number. -/
def contains (i : Interval) (digits : Nat) (exponent : Int) : Bool :=
  let point := digits * 10 ^ exponent.toNat * i.denominator
  let shift := 10 ^ (-exponent).toNat
  if i.closed then i.lower * shift ≤ point && point ≤ i.upper * shift
  else i.lower * shift < point && point < i.upper * shift

/-- The grid point of `10 ^ exponent` at or below the number. -/
def below (i : Interval) (exponent : Int) : Nat :=
  (i.value * 10 ^ (-exponent).toNat) / (i.denominator * 10 ^ exponent.toNat)

/-- Of the two grid points `digits` and `digits + 1`, the one nearer to the
number, and the even one when they are equally near. -/
def nearer (i : Interval) (digits : Nat) (exponent : Int) : Nat :=
  let middle := (2 * digits + 1) * 10 ^ exponent.toNat * i.denominator
  let twice := 2 * i.value * 10 ^ (-exponent).toNat
  if twice < middle then digits
  else if middle < twice then digits + 1
  else digits + digits % 2

/-- The point of the grid of `10 ^ exponent` that rounds to the number, if
there is one. -/
def onGrid? (i : Interval) (exponent : Int) : Option Nat :=
  let digits := i.below exponent
  match i.contains digits exponent, i.contains (digits + 1) exponent with
  | true, true => some (i.nearer digits exponent)
  | true, false => some digits
  | false, true => some (digits + 1)
  | false, false => none

/-- The least exponent from `k` on, and at most `fuel` above it, at which the
number reaches one. -/
def leastPower (i : Interval) : Nat → Nat → Nat
  | 0, k => k
  | fuel + 1, k =>
    if i.denominator ≤ i.value * 10 ^ k then k else i.leastPower fuel (k + 1)

/-- The exponent of the number's leading decimal digit. -/
def leading (i : Interval) : Int :=
  if i.denominator ≤ i.value then
    ((Nat.toDigits 10 (i.value / i.denominator)).length : Int) - 1
  else -(i.leastPower 330 1 : Int)

/-- The first hit on the grids whose last digits stand at `exponent` and below,
at most `fuel` of them. -/
def search? (i : Interval) : (fuel : Nat) → (exponent : Int) → Option Decimal
  | 0, _ => none
  | fuel + 1, exponent =>
    match i.onGrid? exponent with
    | some digits => some ⟨digits, exponent⟩
    | none => i.search? fuel (exponent - 1)

end Interval

/-- A positive number as a decimal without rounding. -/
def exactDecimal (x : FiniteBinary64) : Decimal :=
  if x.scale < 0 then ⟨x.mantissa * 5 ^ (-x.scale).toNat, x.scale⟩
  else ⟨x.mantissa * 2 ^ x.scale.toNat, 0⟩

/-- The shortest decimal that rounds to a positive number. -/
def shortest (x : FiniteBinary64) : Decimal :=
  let interval := Interval.of x
  (interval.search? 17 interval.leading).getD (exactDecimal x)

end Binary64
end IndexAccess
