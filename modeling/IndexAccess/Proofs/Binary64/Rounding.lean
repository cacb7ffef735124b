import IndexAccess.Binary64.Shortest
import Mathlib.Data.Rat.Cast.Order
import Mathlib.Algebra.Order.Field.Power
import Mathlib.Tactic.FieldSimp
import Mathlib.Tactic.Linarith
import Mathlib.Tactic.Positivity
import Mathlib.Tactic.NormNum
import Mathlib.Tactic.Ring

/-!
# Rounding and rounding intervals

A rational number rounds to a positive finite number exactly if it lies in the
rounding interval of that number.  The proof follows the rounding: the scale is
the one at which the quotient has 53 bits before the point, and at that scale
the nearest natural number is the mantissa.  Only just below a power of two is
the scale one less, and then the nearest natural number is `2 ^ 53` and is
carried over.
-/

namespace IndexAccess
namespace Binary64

theorem zpow_eq_toNat (base : ℚ) (e : ℤ) :
    base ^ e = base ^ e.toNat / base ^ (-e).toNat := by
  obtain ⟨n, rfl | rfl⟩ := e.eq_nat_or_neg
  · simp
  · simp [zpow_neg]

/-! ## The nearest natural number -/

section Nearest

/-- `k` is nearest to `q`, and even if `q` is in the middle of two numbers. -/
structure IsNearest (q : ℚ) (k : ℕ) : Prop where
  lower : (k : ℚ) - 1 / 2 ≤ q
  upper : q ≤ k + 1 / 2
  even : q = k - 1 / 2 ∨ q = k + 1 / 2 → k % 2 = 0

theorem nearestEven_eq {num den k : ℕ} (hden : 0 < den)
    (h : IsNearest ((num : ℚ) / den) k) : nearestEven num den = k := by
  have hden' : (0 : ℚ) < den := by exact_mod_cast hden
  have hlower : 2 * k * den ≤ 2 * num + den := by
    have hq := (le_div_iff₀ hden').1 h.lower
    have hcast : ((2 * k * den : ℕ) : ℚ) ≤ ((2 * num + den : ℕ) : ℚ) := by
      push_cast
      linarith
    exact_mod_cast hcast
  have hupper : 2 * num ≤ (2 * k + 1) * den := by
    have hq := (div_le_iff₀ hden').1 h.upper
    have hcast : ((2 * num : ℕ) : ℚ) ≤ (((2 * k + 1) * den : ℕ) : ℚ) := by
      push_cast
      linarith
    exact_mod_cast hcast
  have heven : 2 * num + den = 2 * k * den ∨ 2 * num = (2 * k + 1) * den →
      k % 2 = 0 := by
    intro hends
    apply h.even
    rw [div_eq_iff hden'.ne', div_eq_iff hden'.ne']
    rcases hends with heq | heq
    · have hcast : ((2 * num + den : ℕ) : ℚ) = ((2 * k * den : ℕ) : ℚ) := by
        exact_mod_cast heq
      push_cast at hcast
      exact .inl (by linarith)
    · have hcast : ((2 * num : ℕ) : ℚ) = (((2 * k + 1) * den : ℕ) : ℚ) := by
        exact_mod_cast heq
      push_cast at hcast
      exact .inr (by linarith)
  have hdivision := Nat.div_add_mod num den
  have hrest := Nat.mod_lt num hden
  unfold nearestEven
  dsimp only
  generalize num / den = quotient at *
  generalize num % den = remainder at *
  have hle : quotient ≤ k := by
    by_contra hlt
    nlinarith
  have hge : k ≤ quotient + 1 := by
    by_contra hlt
    nlinarith
  obtain rfl | rfl : k = quotient ∨ k = quotient + 1 := by omega
  · have htwice : 2 * remainder ≤ den := by nlinarith
    have htie : 2 * remainder = den → k % 2 = 0 := by
      intro heq
      exact heven (.inr (by nlinarith))
    split <;> grind
  · have htwice : den ≤ 2 * remainder := by nlinarith
    have htie : 2 * remainder = den → (quotient + 1) % 2 = 0 := by
      intro heq
      exact heven (.inl (by nlinarith))
    split <;> grind

end Nearest

/-! ## The scale of a quotient -/

section Scale

/-- The scale at which `q` has 53 bits before the point, or the least scale if
it has fewer there. -/
structure IsScale (q : ℚ) (scale : ℤ) : Prop where
  least : -1074 ≤ scale
  upper : q < 2 ^ (scale + 53)
  lower : scale = -1074 ∨ 2 ^ (scale + 52) ≤ q

theorem IsScale.le {q : ℚ} {scale other : ℤ} (h : IsScale q scale)
    (hother : IsScale q other) :
    scale ≤ other := by
  rcases h.lower with hleast | hlower
  · rw [hleast]
    exact hother.least
  · have hpowers : (2 : ℚ) ^ (scale + 52) < 2 ^ (other + 53) :=
      hlower.trans_lt hother.upper
    rw [zpow_lt_zpow_iff_right₀ (by norm_num)] at hpowers
    omega

theorem IsScale.unique {q : ℚ} {scale other : ℤ} (h : IsScale q scale)
    (hother : IsScale q other) : scale = other :=
  le_antisymm (h.le hother) (hother.le h)

theorem unitsAt_pos {num den : ℕ} (hden : 0 < den) (scale : ℤ) :
    0 < (unitsAt num den scale).2 :=
  Nat.mul_pos hden (Nat.two_pow_pos _)

theorem unitsAt_quotient (num den : ℕ) (scale : ℤ) :
    ((unitsAt num den scale).1 : ℚ) / (unitsAt num den scale).2 =
      num / den / 2 ^ scale := by
  rw [zpow_eq_toNat, unitsAt]
  push_cast
  rw [div_div_eq_mul_div, div_mul_eq_mul_div, div_div]

theorem two_zpow_log2_le {n : ℕ} (hn : 0 < n) :
    (2 : ℚ) ^ (n.log2 : ℤ) ≤ n := by
  rw [zpow_natCast]
  exact_mod_cast Nat.log2_self_le hn.ne'

theorem lt_two_zpow_log2 (n : ℕ) : (n : ℚ) < 2 ^ ((n.log2 : ℤ) + 1) := by
  have hlog : n < 2 ^ (n.log2 + 1) := Nat.lt_log2_self
  exact_mod_cast hlog

/-- The binary logarithms of numerator and denominator determine that of the
quotient up to one. -/
theorem quotient_bounds {num den : ℕ} (hnum : 0 < num) (hden : 0 < den) :
    (2 : ℚ) ^ ((num.log2 : ℤ) - den.log2 - 1) ≤ num / den ∧
      (num : ℚ) / den < 2 ^ ((num.log2 : ℤ) - den.log2 + 1) := by
  have hden' : (0 : ℚ) < den := by exact_mod_cast hden
  constructor
  · rw [le_div_iff₀ hden']
    calc
      (2 : ℚ) ^ ((num.log2 : ℤ) - den.log2 - 1) * den ≤
          2 ^ ((num.log2 : ℤ) - den.log2 - 1) * 2 ^ ((den.log2 : ℤ) + 1) :=
        mul_le_mul_of_nonneg_left (lt_two_zpow_log2 den).le (by positivity)
      _ = 2 ^ (num.log2 : ℤ) := by
        rw [← zpow_add₀ two_ne_zero]
        congr 1
        omega
      _ ≤ num := two_zpow_log2_le hnum
  · rw [div_lt_iff₀ hden']
    calc
      (num : ℚ) < 2 ^ ((num.log2 : ℤ) + 1) := lt_two_zpow_log2 num
      _ = 2 ^ ((num.log2 : ℤ) - den.log2 + 1) * 2 ^ (den.log2 : ℤ) := by
        rw [← zpow_add₀ two_ne_zero]
        congr 1
        omega
      _ ≤ 2 ^ ((num.log2 : ℤ) - den.log2 + 1) * den :=
        mul_le_mul_of_nonneg_left (two_zpow_log2_le hden) (by positivity)

theorem two_pow_le_units_iff {num den : ℕ} (hden : 0 < den) (scale : ℤ) :
    2 ^ 53 ≤ (unitsAt num den scale).1 / (unitsAt num den scale).2 ↔
      (2 : ℚ) ^ (scale + 53) ≤ num / den := by
  have hunits : (0 : ℚ) < (unitsAt num den scale).2 := by
    exact_mod_cast unitsAt_pos hden scale
  have hpower : (0 : ℚ) < 2 ^ scale := by positivity
  have hsplit : (2 : ℚ) ^ (scale + 53) = 2 ^ 53 * 2 ^ scale := by
    rw [add_comm, zpow_add₀ two_ne_zero]
    norm_cast
  rw [Nat.le_div_iff_mul_le (unitsAt_pos hden scale), hsplit,
    ← le_div_iff₀ hpower, ← unitsAt_quotient, le_div_iff₀ hunits]
  exact_mod_cast Iff.rfl

theorem isScale_scaleOf {num den : ℕ} (hnum : 0 < num) (hden : 0 < den) :
    IsScale ((num : ℚ) / den) (scaleOf num den) := by
  obtain ⟨hlower, hupper⟩ := quotient_bounds hnum hden
  unfold scaleOf
  set coarse : ℤ := max ((num.log2 : ℤ) - den.log2 - 53) (-1074) with hcoarse
  dsimp only
  have hleast : -1074 ≤ coarse := le_max_right _ _
  have hbits : (num : ℚ) / den < 2 ^ (coarse + 54) :=
    hupper.trans_le (zpow_le_zpow_right₀ (by norm_num) (by omega))
  split
  next hmany =>
    rw [two_pow_le_units_iff hden] at hmany
    refine ⟨by omega, ?_, .inr ?_⟩
    · rwa [add_assoc]
    · rwa [add_assoc]
  next hfew =>
    rw [two_pow_le_units_iff hden, not_le] at hfew
    refine ⟨hleast, hfew, ?_⟩
    by_cases heq : coarse = -1074
    · exact .inl heq
    · have hexact : coarse = (num.log2 : ℤ) - den.log2 - 53 := by omega
      right
      rw [hexact]
      convert hlower using 2
      omega

end Scale

/-! ## The rounding interval -/

section Interval

variable {q : ℚ} {x : FiniteBinary64}

/-- How far the rounding interval reaches below a number, in quarters of a unit
of its mantissa. -/
def gapBelow (x : FiniteBinary64) : ℕ :=
  if x.mantissa = 2 ^ 52 ∧ x.scale ≠ -1074 then 1 else 2

def lowerEnd (x : FiniteBinary64) : ℚ :=
  (4 * x.mantissa - gapBelow x) * 2 ^ (x.scale - 2)

def upperEnd (x : FiniteBinary64) : ℚ :=
  (4 * x.mantissa + 2) * 2 ^ (x.scale - 2)

/-- `q` lies in the rounding interval of `x`, whose ends belong to it if the
mantissa is even. -/
structure RoundsTo (q : ℚ) (x : FiniteBinary64) : Prop where
  lower : lowerEnd x ≤ q
  upper : q ≤ upperEnd x
  even : q = lowerEnd x ∨ q = upperEnd x → x.mantissa % 2 = 0

theorem gapBelow_le (x : FiniteBinary64) : gapBelow x ≤ 2 := by
  unfold gapBelow
  split <;> decide

theorem cast_gapBelow_le (x : FiniteBinary64) : (gapBelow x : ℚ) ≤ 2 := by
  exact_mod_cast gapBelow_le x

theorem roundsTo_of_lt_of_lt (hlower : lowerEnd x < q)
    (hupper : q < upperEnd x) :
    RoundsTo q x := by
  refine ⟨hlower.le, hupper.le, ?_⟩
  rintro (heq | heq)
  · exact absurd heq hlower.ne'
  · exact absurd heq hupper.ne

/-- Powers of two around a scale, in quarters of its unit. -/
theorem two_zpow_scale {scale e : ℤ} (n : ℕ) (he : e = scale - 2 + n) :
    (2 : ℚ) ^ e = 2 ^ n * 2 ^ (scale - 2) := by
  rw [he, zpow_add₀ two_ne_zero, zpow_natCast, mul_comm]

theorem mantissa_le (x : FiniteBinary64) : (x.mantissa : ℚ) ≤ 2 ^ 53 - 1 := by
  have hmax := x.canonical.1
  have hcast : ((x.mantissa + 1 : ℕ) : ℚ) ≤ ((2 ^ 53 : ℕ) : ℚ) := by
    exact_mod_cast hmax
  push_cast at hcast
  linarith

theorem half_unit_le_lowerEnd (hx : 0 < x.mantissa) :
    2 ^ 1 * 2 ^ (x.scale - 2) ≤ lowerEnd x := by
  have hone : (1 : ℚ) ≤ x.mantissa := by exact_mod_cast hx
  have hgap := cast_gapBelow_le x
  exact mul_le_mul_of_nonneg_right (by linarith) (zpow_pos two_pos _).le

theorem RoundsTo.pos (hx : 0 < x.mantissa) (h : RoundsTo q x) : 0 < q := by
  have hunit : (0 : ℚ) < 2 ^ 1 * 2 ^ (x.scale - 2) := by positivity
  exact (hunit.trans_le (half_unit_le_lowerEnd hx)).trans_le h.lower

/-- The scale of a number is that of every quotient in its interval with 53
bits. -/
theorem RoundsTo.isScale (h : RoundsTo q x)
    (hbits : x.scale = -1074 ∨ 2 ^ (x.scale + 52) ≤ q) :
    IsScale q x.scale := by
  refine ⟨x.canonical.2.1, ?_, hbits⟩
  calc
    q ≤ (4 * x.mantissa + 2) * 2 ^ (x.scale - 2) := h.upper
    _ < 2 ^ 55 * 2 ^ (x.scale - 2) :=
      mul_lt_mul_of_pos_right (by linarith [mantissa_le x])
        (zpow_pos two_pos _)
    _ = 2 ^ (x.scale + 53) := (two_zpow_scale 55 (by omega)).symm

/-- At the scale of a number its mantissa is the nearest natural number. -/
theorem RoundsTo.isNearest (h : RoundsTo q x) :
    IsNearest (q / 2 ^ x.scale) x.mantissa := by
  have hunit : (0 : ℚ) < 2 ^ (x.scale - 2) := zpow_pos two_pos _
  have hscale : (2 : ℚ) ^ x.scale = 2 ^ 2 * 2 ^ (x.scale - 2) :=
    two_zpow_scale 2 (by omega)
  have hgap := cast_gapBelow_le x
  have hlower := h.lower
  have hupper := h.upper
  unfold lowerEnd at hlower
  unfold upperEnd at hupper
  rw [hscale]
  refine ⟨?_, ?_, ?_⟩
  · rw [le_div_iff₀ (by positivity)]
    nlinarith
  · rw [div_le_iff₀ (by positivity)]
    linarith
  · rw [div_eq_iff (by positivity), div_eq_iff (by positivity)]
    rintro (heq | heq)
    · apply h.even
      left
      have hgap_eq : gapBelow x = 2 := by
        by_contra hne
        have hsmall : (gapBelow x : ℚ) ≤ 1 := by
          have hle := gapBelow_le x
          exact_mod_cast (show gapBelow x ≤ 1 by omega)
        nlinarith
      rw [lowerEnd, hgap_eq, heq]
      push_cast
      ring
    · apply h.even
      right
      rw [upperEnd, heq]
      ring

/-- Only a power of two has quotients with fewer bits in its interval. -/
theorem RoundsTo.mantissa_eq (h : RoundsTo q x) (hleast : x.scale ≠ -1074)
    (hbits : q < 2 ^ (x.scale + 52)) : x.mantissa = 2 ^ 52 := by
  have hmin : 2 ^ 52 ≤ x.mantissa := x.canonical.2.2.2.resolve_right hleast
  have hunit : (0 : ℚ) < 2 ^ (x.scale - 2) := zpow_pos two_pos _
  have hgap := cast_gapBelow_le x
  have hlt : ((4 * x.mantissa - gapBelow x) * 2 ^ (x.scale - 2) : ℚ) <
      2 ^ 54 * 2 ^ (x.scale - 2) := by
    calc
      ((4 * x.mantissa - gapBelow x) * 2 ^ (x.scale - 2) : ℚ) ≤ q := h.lower
      _ < 2 ^ (x.scale + 52) := hbits
      _ = 2 ^ 54 * 2 ^ (x.scale - 2) := two_zpow_scale 54 (by omega)
  have hmantissa : (4 * x.mantissa : ℚ) < 2 ^ 54 + 2 := by
    have hcancel := lt_of_mul_lt_mul_right hlt hunit.le
    linarith
  have hcast : 4 * x.mantissa < 2 ^ 54 + 2 := by exact_mod_cast hmantissa
  omega

/-- Below a power of two a quotient has its bits at the scale before. -/
theorem RoundsTo.isScale_pred (h : RoundsTo q x) (hleast : x.scale ≠ -1074)
    (hbits : q < 2 ^ (x.scale + 52)) : IsScale q (x.scale - 1) := by
  have hmin := x.canonical.2.1
  refine ⟨by omega, ?_, .inr ?_⟩
  · convert hbits using 2
    ring
  · calc
      (2 : ℚ) ^ (x.scale - 1 + 52) = 2 ^ 53 * 2 ^ (x.scale - 2) :=
        two_zpow_scale 53 (by omega)
      _ ≤ lowerEnd x := by
        unfold lowerEnd gapBelow
        rw [h.mantissa_eq hleast hbits, if_pos ⟨rfl, hleast⟩]
        exact mul_le_mul_of_nonneg_right (by norm_num) (zpow_pos two_pos _).le
      _ ≤ q := h.lower

/-- Below a power of two the nearest natural number is the one that is carried
over. -/
theorem RoundsTo.isNearest_pred (h : RoundsTo q x) (hleast : x.scale ≠ -1074)
    (hbits : q < 2 ^ (x.scale + 52)) :
    IsNearest (q / 2 ^ (x.scale - 1)) (2 ^ 53) := by
  have hunit : (0 : ℚ) < 2 ^ (x.scale - 2) := zpow_pos two_pos _
  have hscale : (2 : ℚ) ^ (x.scale - 1) = 2 ^ 1 * 2 ^ (x.scale - 2) :=
    two_zpow_scale 1 (by omega)
  have hlower := h.lower
  rw [lowerEnd, gapBelow, h.mantissa_eq hleast hbits,
    if_pos ⟨rfl, hleast⟩] at hlower
  have hupper : q < 2 ^ 54 * 2 ^ (x.scale - 2) :=
    hbits.trans_eq (two_zpow_scale 54 (by omega))
  rw [hscale]
  refine ⟨?_, ?_, fun _ => by norm_num⟩
  · rw [le_div_iff₀ (by positivity)]
    push_cast at hlower ⊢
    linarith
  · rw [div_le_iff₀ (by positivity)]
    push_cast
    linarith

theorem ofParts_canonical (x : FiniteBinary64) :
    ofParts x.negative x.mantissa x.scale = .finite x := by
  rw [ofParts, dif_pos x.canonical]

/-- A quotient in the rounding interval of a positive number rounds to it. -/
theorem ofRatio_of_roundsTo {num den : ℕ} (hden : 0 < den)
    (hx : 0 < x.mantissa) (h : RoundsTo ((num : ℚ) / den) x) :
    ofRatio x.negative num den = .finite x := by
  have hnum : 0 < num := by
    rcases Nat.eq_zero_or_pos num with rfl | hpos
    · have hpos := h.pos hx
      simp at hpos
    · exact hpos
  have hfound := isScale_scaleOf hnum hden
  rw [ofRatio, if_neg hnum.ne']
  dsimp only
  by_cases hbits : x.scale = -1074 ∨ 2 ^ (x.scale + 52) ≤ (num : ℚ) / den
  · rw [hfound.unique (h.isScale hbits)]
    have hnearest := h.isNearest
    rw [← unitsAt_quotient] at hnearest
    rw [nearestEven_eq (unitsAt_pos hden _) hnearest,
      if_neg (Nat.ne_of_lt x.canonical.1)]
    exact ofParts_canonical x
  · rw [not_or, not_le] at hbits
    rw [hfound.unique (h.isScale_pred hbits.1 hbits.2)]
    have hnearest := h.isNearest_pred hbits.1 hbits.2
    rw [← unitsAt_quotient] at hnearest
    rw [nearestEven_eq (unitsAt_pos hden _) hnearest, if_pos rfl,
      sub_add_cancel, ← h.mantissa_eq hbits.1 hbits.2]
    exact ofParts_canonical x

end Interval

end Binary64
end IndexAccess
