import IndexAccess.Proofs.Binary64.Shortest
import IndexAccess.Proofs.Node.CanonicalForm

/-!
# Exact quantities

Numbers of all classes stand for rational numbers or infinities, and two
numbers are equal exactly if they stand for the same.  The test of a binary64
number against an integer multiplies the power of two out, to either side; two
binary64 numbers of one value have the same scale, the one at which their value
has its bits.
-/

namespace IndexAccess

namespace FiniteBinary64

open Binary64

variable (x y : FiniteBinary64)

/-- The rational number that a finite number is. -/
def toRat : ℚ :=
  x.coefficient * 2 ^ x.scale

theorem abs_toRat : |x.toRat| = x.mantissa * 2 ^ x.scale := by
  have hpower : (0 : ℚ) < 2 ^ x.scale := zpow_pos two_pos _
  rw [toRat, abs_mul, abs_of_pos hpower]
  congr 1
  cases hnegative : x.negative <;> simp [coefficient, hnegative]

theorem isScale_abs_toRat : IsScale |x.toRat| x.scale := by
  rw [abs_toRat]
  apply (roundsTo_self x).isScale
  rcases x.canonical.2.2.2 with hbits | hleast
  · right
    have hcast : ((2 ^ 52 : ℕ) : ℚ) ≤ x.mantissa := by exact_mod_cast hbits
    push_cast at hcast
    rw [add_comm, zpow_add₀ two_ne_zero]
    exact mul_le_mul_of_nonneg_right (by exact_mod_cast hcast)
      (zpow_pos two_pos _).le
  · exact .inl hleast

theorem isInteger_iff_toRat_eq (i : ℤ) :
    x.isInteger i = true ↔ x.toRat = i := by
  have hpower : (2 : ℚ) ^ (-x.scale).toNat ≠ 0 := by positivity
  rw [toRat, zpow_eq_toNat, ← mul_div_assoc, div_eq_iff hpower, isInteger,
    beq_iff_eq]
  norm_cast

variable {x y}

theorem toRat_eq_zero_iff : x.toRat = 0 ↔ x.isZero = true := by
  rw [← abs_eq_zero, abs_toRat, mul_eq_zero,
    or_iff_left (zpow_ne_zero _ two_ne_zero), Nat.cast_eq_zero, isZero,
    beq_iff_eq]

/-- The coefficient is the mantissa with the sign of the number, which only
zero has twice. -/
theorem coefficient_eq_iff :
    x.coefficient = y.coefficient ↔
      x.mantissa = y.mantissa ∧
      (x.negative = y.negative ∨ x.mantissa = 0) := by
  unfold coefficient
  cases x.negative <;> cases y.negative <;> simp <;> omega

/-- Numbers of one value are one number, or the two zeros. -/
theorem sameNumber_iff_toRat_eq :
    x.sameNumber y = true ↔ x.toRat = y.toRat := by
  constructor
  · intro h
    rw [sameNumber, Bool.or_eq_true, beq_iff_eq, Bool.and_eq_true] at h
    rcases h with rfl | ⟨hx, hy⟩
    · rfl
    · rw [toRat_eq_zero_iff.2 hx, toRat_eq_zero_iff.2 hy]
  · intro h
    have hscale : x.scale = y.scale :=
      x.isScale_abs_toRat.unique (h ▸ y.isScale_abs_toRat)
    have hcoefficient : x.coefficient = y.coefficient := by
      rw [toRat, toRat, hscale] at h
      exact_mod_cast mul_right_cancel₀ (zpow_ne_zero y.scale two_ne_zero) h
    obtain ⟨hmantissa, hnegative | hzero⟩ := coefficient_eq_iff.1 hcoefficient
    · have heq : x = y := by
        cases x
        cases y
        simp_all
      simp [sameNumber, heq]
    · simp [sameNumber, isZero, ← hmantissa, hzero]

end FiniteBinary64

/-- What a number stands for. -/
inductive Quantity where
  | finite (value : ℚ)
  | infinite (negative : Bool)

def Binary64.quantity? : Binary64 → Option Quantity
  | finite x => some (.finite x.toRat)
  | infinite negative => some (.infinite negative)
  | nan => none

def Numeric.quantity? : Numeric → Option Quantity
  | integer i => some (.finite i)
  | number x => x.quantity?

/-- The quantity that a truth value, an integer or a number other than
not-a-number stands for. -/
def Value.quantity? (v : Value) : Option Quantity :=
  v.numeric?.bind Numeric.quantity?

theorem Binary64.isInteger_iff_quantity_eq {x : Binary64} {i : ℤ}
    {q : Quantity} (hx : x.quantity? = some q) :
    x.isInteger i = true ↔ q = .finite i := by
  cases x with
  | finite x =>
      obtain rfl := Option.some.inj hx
      simpa [isInteger] using x.isInteger_iff_toRat_eq i
  | infinite negative =>
      obtain rfl := Option.some.inj hx
      simp [isInteger]
  | nan => cases hx

theorem Binary64.sameNumber_iff_quantity_eq {x y : Binary64} {p q : Quantity}
    (hx : x.quantity? = some p) (hy : y.quantity? = some q) :
    x.sameNumber y = true ↔ p = q := by
  cases x with
  | nan => cases hx
  | finite x =>
      obtain rfl := Option.some.inj hx
      cases y with
      | nan => cases hy
      | finite y =>
          obtain rfl := Option.some.inj hy
          simpa [sameNumber] using FiniteBinary64.sameNumber_iff_toRat_eq
      | infinite =>
          obtain rfl := Option.some.inj hy
          simp [sameNumber]
  | infinite negative =>
      obtain rfl := Option.some.inj hx
      cases y with
      | nan => cases hy
      | finite | infinite =>
          obtain rfl := Option.some.inj hy
          simp [sameNumber]

/-- Equality of numbers of either kind is equality of what they stand for. -/
theorem Numeric.same_iff_quantity_eq {x y : Numeric} {p q : Quantity}
    (hx : x.quantity? = some p) (hy : y.quantity? = some q) :
    x.same y = true ↔ p = q := by
  cases x with
  | integer a =>
      obtain rfl := Option.some.inj hx
      cases y with
      | integer b =>
          obtain rfl := Option.some.inj hy
          simp [same]
      | number y => exact (Binary64.isInteger_iff_quantity_eq hy).trans eq_comm
  | number x =>
      cases y with
      | integer b =>
          obtain rfl := Option.some.inj hy
          exact Binary64.isInteger_iff_quantity_eq hx
      | number y => exact Binary64.sameNumber_iff_quantity_eq hx hy

theorem Value.same_eq_of_numeric? {a b : Value} {x y : Numeric}
    (ha : a.numeric? = some x) (hb : b.numeric? = some y) :
    a.same b = x.same y := by
  have hplain : a.same b = a.samePlain b := by
    cases a <;> first | rfl | cases ha
  rw [hplain]
  unfold samePlain
  rw [ha, hb]

theorem Value.same_iff_quantity_eq {a b : Value} {p q : Quantity}
    (ha : a.quantity? = some p) (hb : b.quantity? = some q) :
    a.same b = true ↔ p = q := by
  obtain ⟨x, hx, hp⟩ := Option.bind_eq_some_iff.1 ha
  obtain ⟨y, hy, hq⟩ := Option.bind_eq_some_iff.1 hb
  rw [same_eq_of_numeric? hx hy]
  exact Numeric.same_iff_quantity_eq hp hq

end IndexAccess
