import IndexAccess.Proofs.Binary64.Rounding

/-!
# The shortest decimal rounds to its number

Whatever the search finds is a grid point that passed the test of the rounding
interval, and a search without a hit ends with the exact decimal, which lies
inside the interval.  A decimal in the interval is read back as the number,
since it is neither so large nor so small that it would be given up before
rounding.
-/

namespace IndexAccess
namespace Binary64

variable {x : FiniteBinary64} {digits : ℕ} {exponent : ℤ}

/-! ## Decimals within the range -/

section Range

theorem upperEnd_lt (x : FiniteBinary64) : upperEnd x < 2 ^ (1024 : ℤ) := by
  have hscale := x.canonical.2.2.1
  calc
    upperEnd x < 2 ^ 55 * 2 ^ (x.scale - 2) :=
      mul_lt_mul_of_pos_right (by linarith [mantissa_le x])
        (zpow_pos two_pos _)
    _ = 2 ^ (x.scale + 53) := (two_zpow_scale 55 (by omega)).symm
    _ ≤ 2 ^ (1024 : ℤ) := zpow_le_zpow_right₀ (by norm_num) (by omega)

theorem le_lowerEnd (hx : 0 < x.mantissa) : 2 ^ (-1075 : ℤ) ≤ lowerEnd x := by
  have hscale := x.canonical.2.1
  calc
    (2 : ℚ) ^ (-1075 : ℤ) ≤ 2 ^ (x.scale - 1) :=
      zpow_le_zpow_right₀ (by norm_num) (by omega)
    _ = 2 ^ 1 * 2 ^ (x.scale - 2) := two_zpow_scale 1 (by omega)
    _ ≤ lowerEnd x := half_unit_le_lowerEnd hx

theorem RoundsTo.exponent_le (hdigits : 0 < digits)
    (h : RoundsTo ((digits : ℚ) * 10 ^ exponent) x) : exponent ≤ 400 := by
  by_contra hlarge
  have hone : (1 : ℚ) ≤ digits := by exact_mod_cast hdigits
  have hpower : (2 : ℚ) ^ (1024 : ℤ) < 10 ^ exponent :=
    calc
      (2 : ℚ) ^ (1024 : ℤ) ≤ 2 ^ (3 * 401 : ℤ) :=
        zpow_le_zpow_right₀ (by norm_num) (by norm_num)
      _ = (2 ^ (3 : ℤ)) ^ (401 : ℤ) := zpow_mul 2 3 401
      _ < 10 ^ (401 : ℤ) :=
        zpow_lt_zpow_left₀ (by norm_num) (by norm_num) (by norm_num)
      _ ≤ 10 ^ exponent := zpow_le_zpow_right₀ (by norm_num) (by omega)
  have hle : (10 : ℚ) ^ exponent ≤ digits * 10 ^ exponent :=
    le_mul_of_one_le_left (zpow_pos (by norm_num) _).le hone
  have hbound := h.upper.trans_lt (upperEnd_lt x)
  linarith

theorem ten_zpow_le (hneg : exponent ≤ 0) :
    (10 : ℚ) ^ exponent ≤ 2 ^ (3 * exponent) := by
  obtain ⟨n, hn⟩ : ∃ n : ℕ, exponent = -n := ⟨(-exponent).toNat, by omega⟩
  rw [zpow_mul, hn, zpow_neg, zpow_neg, zpow_natCast, zpow_natCast]
  apply inv_anti₀ (by positivity)
  exact pow_le_pow_left₀ (by norm_num) (by norm_num) n

/-- No decimal in the rounding interval of a positive number is given up as too
small. -/
theorem RoundsTo.le_log2 (hx : 0 < x.mantissa)
    (h : RoundsTo ((digits : ℚ) * 10 ^ exponent) x) :
    -1100 ≤ 3 * exponent + digits.log2 := by
  by_cases hneg : exponent ≤ 0
  · have hpowers : (2 : ℚ) ^ (-1075 : ℤ) <
        2 ^ ((digits.log2 : ℤ) + 1 + 3 * exponent) :=
      calc
        (2 : ℚ) ^ (-1075 : ℤ) ≤ digits * 10 ^ exponent :=
          (le_lowerEnd hx).trans h.lower
        _ ≤ digits * 2 ^ (3 * exponent) :=
          mul_le_mul_of_nonneg_left (ten_zpow_le hneg) (by positivity)
        _ < 2 ^ ((digits.log2 : ℤ) + 1) * 2 ^ (3 * exponent) :=
          mul_lt_mul_of_pos_right (lt_two_zpow_log2 digits)
            (zpow_pos two_pos _)
        _ = 2 ^ ((digits.log2 : ℤ) + 1 + 3 * exponent) :=
          (zpow_add₀ two_ne_zero _ _).symm
    rw [zpow_lt_zpow_iff_right₀ (by norm_num)] at hpowers
    omega
  · omega

/-- A decimal in the rounding interval of a positive number is read as that
number. -/
theorem ofDecimal_of_roundsTo (hx : 0 < x.mantissa)
    (h : RoundsTo ((digits : ℚ) * 10 ^ exponent) x) :
    ofDecimal x.negative digits exponent = .finite x := by
  have hdigits : 0 < digits := by
    rcases Nat.eq_zero_or_pos digits with rfl | hpos
    · have hpos := h.pos hx
      simp at hpos
    · exact hpos
  have hlarge := h.exponent_le hdigits
  have hsmall := h.le_log2 hx
  have hquotient : ((digits * 10 ^ exponent.toNat : ℕ) : ℚ) /
      ((10 ^ (-exponent).toNat : ℕ) : ℚ) =
      digits * 10 ^ exponent := by
    rw [zpow_eq_toNat 10 exponent]
    push_cast
    rw [mul_div_assoc]
  rw [ofDecimal, if_neg hdigits.ne', if_neg (by omega), if_neg (by omega)]
  apply ofRatio_of_roundsTo (by positivity) hx
  rwa [hquotient]

end Range

/-! ## The search -/

section Search

theorem scaled_le_iff {a unit d power shift den : ℕ} (hshift : 0 < shift)
    (hden : 0 < den) :
    a * unit * shift ≤ d * power * den ↔
      (a : ℚ) * (unit / den) ≤ d * (power / shift) := by
  have hshift' : (0 : ℚ) < shift := by exact_mod_cast hshift
  have hden' : (0 : ℚ) < den := by exact_mod_cast hden
  rw [← mul_div_assoc, ← mul_div_assoc, div_le_div_iff₀ hden' hshift']
  exact_mod_cast Iff.rfl

theorem le_scaled_iff {a unit d power shift den : ℕ} (hshift : 0 < shift)
    (hden : 0 < den) :
    d * power * den ≤ a * unit * shift ↔
      (d : ℚ) * (power / shift) ≤ a * (unit / den) := by
  have hshift' : (0 : ℚ) < shift := by exact_mod_cast hshift
  have hden' : (0 : ℚ) < den := by exact_mod_cast hden
  rw [← mul_div_assoc, ← mul_div_assoc, div_le_div_iff₀ hshift' hden']
  exact_mod_cast Iff.rfl

/-- The test of the interval over a common denominator is membership in it. -/
theorem roundsTo_of_contains (hx : 0 < x.mantissa)
    (h : (Interval.of x).contains digits exponent = true) :
    RoundsTo ((digits : ℚ) * 10 ^ exponent) x := by
  have hshift : 0 < 10 ^ (-exponent).toNat := by positivity
  have hden : 0 < 2 ^ (-(x.scale - 2)).toNat := by positivity
  have hlower : lowerEnd x =
      ((4 * x.mantissa - gapBelow x : ℕ) : ℚ) *
        (((2 ^ (x.scale - 2).toNat : ℕ) : ℚ) /
          ((2 ^ (-(x.scale - 2)).toNat : ℕ) : ℚ)) := by
    have hgap := gapBelow_le x
    rw [lowerEnd, zpow_eq_toNat 2 (x.scale - 2), Nat.cast_sub (by omega)]
    push_cast
    rfl
  have hupper : upperEnd x =
      ((4 * x.mantissa + 2 : ℕ) : ℚ) *
        (((2 ^ (x.scale - 2).toNat : ℕ) : ℚ) /
          ((2 ^ (-(x.scale - 2)).toNat : ℕ) : ℚ)) := by
    rw [upperEnd, zpow_eq_toNat 2 (x.scale - 2)]
    push_cast
    rfl
  have hvalue : (digits : ℚ) * 10 ^ exponent =
      digits * (((10 ^ exponent.toNat : ℕ) : ℚ) /
        ((10 ^ (-exponent).toNat : ℕ) : ℚ)) := by
    rw [zpow_eq_toNat 10 exponent]
    push_cast
    rfl
  unfold Interval.contains at h
  dsimp only at h
  by_cases hclosed : (Interval.of x).closed = true
  · rw [if_pos hclosed, Bool.and_eq_true, decide_eq_true_eq,
      decide_eq_true_eq] at h
    refine ⟨?_, ?_, fun _ => by simpa [Interval.of] using hclosed⟩
    · rw [hlower, hvalue]
      exact (scaled_le_iff hshift hden).1 h.1
    · rw [hupper, hvalue]
      exact (le_scaled_iff hshift hden).1 h.2
  · rw [if_neg hclosed, Bool.and_eq_true, decide_eq_true_eq,
      decide_eq_true_eq] at h
    have habove : lowerEnd x < digits * 10 ^ exponent := by
      rw [hlower, hvalue, ← not_le, ← le_scaled_iff hshift hden, not_le]
      exact h.1
    have hbelow : digits * 10 ^ exponent < upperEnd x := by
      rw [hupper, hvalue, ← not_le, ← scaled_le_iff hshift hden, not_le]
      exact h.2
    exact roundsTo_of_lt_of_lt habove hbelow

theorem Interval.nearer_eq (i : Interval) (digits : ℕ) (exponent : ℤ) :
    i.nearer digits exponent = digits ∨
    i.nearer digits exponent = digits + 1 := by
  unfold nearer
  dsimp only
  split
  next => exact .inl rfl
  next =>
    split
    next => exact .inr rfl
    next =>
      rcases Nat.mod_two_eq_zero_or_one digits with heven | hodd
      · exact .inl (by omega)
      · exact .inr (by omega)

theorem Interval.contains_of_onGrid? {i : Interval}
    (h : i.onGrid? exponent = some digits) :
    i.contains digits exponent = true := by
  unfold onGrid? at h
  dsimp only at h
  split at h
  next hfirst hsecond =>
    obtain rfl := Option.some.inj h
    rcases i.nearer_eq (i.below exponent) exponent with heq | heq
    · rw [heq, hfirst]
    · rw [heq, hsecond]
  next hfirst _ =>
    obtain rfl := Option.some.inj h
    exact hfirst
  next _ hsecond =>
    obtain rfl := Option.some.inj h
    exact hsecond
  next => cases h

theorem Interval.contains_of_search? {i : Interval} {fuel : ℕ}
    {found : Decimal} (h : i.search? fuel exponent = some found) :
    i.contains found.digits found.exponent = true := by
  induction fuel generalizing exponent with
  | zero => cases h
  | succ fuel ih =>
      unfold search? at h
      split at h
      next digits hhit =>
        obtain rfl := Option.some.inj h
        exact contains_of_onGrid? hhit
      next => exact ih h

theorem roundsTo_self (x : FiniteBinary64) :
    RoundsTo (x.mantissa * 2 ^ x.scale) x := by
  have hunit : (0 : ℚ) < 2 ^ (x.scale - 2) := zpow_pos two_pos _
  have hscale : (2 : ℚ) ^ x.scale = 2 ^ 2 * 2 ^ (x.scale - 2) :=
    two_zpow_scale 2 (by omega)
  have hgap : (1 : ℚ) ≤ gapBelow x := by
    have hmin : 1 ≤ gapBelow x := by
      unfold gapBelow
      split <;> decide
    exact_mod_cast hmin
  have habove : lowerEnd x < x.mantissa * 2 ^ x.scale := by
    rw [lowerEnd, hscale]
    nlinarith
  have hbelow : x.mantissa * 2 ^ x.scale < upperEnd x := by
    rw [upperEnd, hscale]
    nlinarith
  exact roundsTo_of_lt_of_lt habove hbelow

theorem exactDecimal_value (x : FiniteBinary64) :
    ((exactDecimal x).digits : ℚ) * 10 ^ (exactDecimal x).exponent =
      x.mantissa * 2 ^ x.scale := by
  unfold exactDecimal
  split
  next hneg =>
    obtain ⟨n, hn⟩ : ∃ n : ℕ, x.scale = -n := ⟨(-x.scale).toNat, by omega⟩
    rw [hn, neg_neg, Int.toNat_natCast, zpow_neg, zpow_neg, zpow_natCast,
      zpow_natCast]
    have hten : (10 : ℚ) ^ n = 2 ^ n * 5 ^ n := by
      rw [← mul_pow]
      norm_num
    rw [hten]
    push_cast
    field_simp
  next hnonneg =>
    obtain ⟨n, hn⟩ : ∃ n : ℕ, x.scale = n := ⟨x.scale.toNat, by omega⟩
    rw [hn, Int.toNat_natCast, zpow_natCast]
    simp

/-- The shortest decimal of a positive number lies in its rounding interval. -/
theorem roundsTo_shortest (hx : 0 < x.mantissa) :
    RoundsTo ((shortest x).digits * 10 ^ (shortest x).exponent) x := by
  unfold shortest
  dsimp only
  cases hsearch : (Interval.of x).search? 17 (Interval.of x).leading with
  | none =>
      rw [Option.getD_none, exactDecimal_value]
      exact roundsTo_self x
  | some found =>
      exact roundsTo_of_contains hx (Interval.contains_of_search? hsearch)

end Search

end Binary64
end IndexAccess
