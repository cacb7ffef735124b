import IndexAccess.Number.Power

/-!
# Binary64 numbers

A binary64 number is not a number, an infinity, or a finite number
`± mantissa · 2 ^ scale`.  A finite number has one canonical form: the mantissa
has exactly 53 bits, or the scale is the least one.  All arithmetic is exact
arithmetic on natural numbers and integers.
-/

namespace IndexAccess

attribute [local instance] corePower

/-- A mantissa below `2 ^ 53` with a scale in range, and with 53 bits unless
the scale is the least one. -/
def Binary64.Canonical (mantissa : Nat) (scale : Int) : Prop :=
  mantissa < 2 ^ (53 : Nat) ∧ -1074 ≤ scale ∧ scale ≤ 971 ∧
    (2 ^ (52 : Nat) ≤ mantissa ∨ scale = -1074)

instance (mantissa : Nat) (scale : Int) :
    Decidable (Binary64.Canonical mantissa scale) := by
  unfold Binary64.Canonical
  infer_instance

/-- The finite number `± mantissa · 2 ^ scale`; zero keeps its sign. -/
structure FiniteBinary64 where
  negative : Bool
  mantissa : Nat
  scale : Int
  canonical : Binary64.Canonical mantissa scale
deriving DecidableEq

inductive Binary64 where
  | finite (value : FiniteBinary64)
  | infinite (negative : Bool)
  | nan
deriving DecidableEq

namespace FiniteBinary64

def zero (negative : Bool) : FiniteBinary64 where
  negative := negative
  mantissa := 0
  scale := -1074
  canonical := by decide

instance : Inhabited FiniteBinary64 := ⟨zero false⟩

def isZero (x : FiniteBinary64) : Bool :=
  x.mantissa == 0

def coefficient (x : FiniteBinary64) : Int :=
  if x.negative then -(x.mantissa : Int) else x.mantissa

/-- Equality of the numbers: the two zeros are equal. -/
def sameNumber (x y : FiniteBinary64) : Bool :=
  x == y || (x.isZero && y.isZero)

def isInteger (x : FiniteBinary64) (i : Int) : Bool :=
  x.coefficient * 2 ^ x.scale.toNat == i * 2 ^ (-x.scale).toNat

def isBelow (x : FiniteBinary64) (i : Int) : Bool :=
  x.coefficient * 2 ^ x.scale.toNat < i * 2 ^ (-x.scale).toNat

/-- The integer part, toward zero. -/
def truncate (x : FiniteBinary64) : Int :=
  (x.coefficient * 2 ^ x.scale.toNat).tdiv (2 ^ (-x.scale).toNat)

/-- The integer `n` such that the number is `n · 2 ^ scale`, for a scale that
is at most the number's own. -/
def coefficientAt (x : FiniteBinary64) (scale : Int) : Int :=
  x.coefficient * 2 ^ (x.scale - scale).toNat

theorem sameNumber_refl (x : FiniteBinary64) : x.sameNumber x = true := by
  simp [sameNumber]

end FiniteBinary64

namespace Binary64

/-- Equality of the numbers: the two zeros are equal and not-a-number equals
nothing. -/
def sameNumber : Binary64 → Binary64 → Bool
  | .finite x, .finite y => x.sameNumber y
  | .infinite a, .infinite b => a == b
  | _, _ => false

def isInteger : Binary64 → Int → Bool
  | .finite x, i => x.isInteger i
  | _, _ => false

/-- Whether a number is less than an integer; not-a-number is not. -/
def isBelow : Binary64 → Int → Bool
  | .finite x, i => x.isBelow i
  | .infinite negative, _ => negative
  | .nan, _ => false

/-- Whether a number is an integer or greater than it; not-a-number is not. -/
def isAtLeast : Binary64 → Int → Bool
  | .finite x, i => !x.isBelow i
  | .infinite negative, _ => !negative
  | .nan, _ => false

def isZero : Binary64 → Bool
  | .finite x => x.isZero
  | _ => false

end Binary64
end IndexAccess
