import IndexAccess.Number.IntegerText
import Mathlib

/-!
# Digits and the numbers they write

A sequence of `k` decimal digits writes a number below `10 ^ k`, and one that
starts with another digit than zero writes at least `10 ^ (k - 1)`.  Zeros at
the front change nothing, so the number of significant digits alone decides
most comparisons.  The decimal text of a positive number has no zero at its
front.
-/

namespace IndexAccess
namespace Number

theorem ofDigitChars_cons_eq (c : Char) (digits : List Char) :
    Nat.ofDigitChars 10 (c :: digits) 0 =
      10 ^ digits.length * (c.toNat - 48) + Nat.ofDigitChars 10 digits 0 := by
  rw [Nat.ofDigitChars_cons, Nat.ofDigitChars_eq_ofDigitChars_zero]
  simp

theorem isDigit_iff {c : Char} :
    c.isDigit = true ↔ 48 ≤ c.toNat ∧ c.toNat ≤ 57 := by
  simp only [Char.isDigit, ge_iff_le, UInt32.le_iff_toNat_le, Bool.and_eq_true,
    decide_eq_true_eq]
  exact Iff.rfl

theorem ofDigitChars_lt {digits : List Char}
    (h : ∀ c ∈ digits, c.isDigit = true) :
    Nat.ofDigitChars 10 digits 0 < 10 ^ digits.length := by
  induction digits with
  | nil => simp
  | cons c rest ih =>
      have hc := isDigit_iff.1 (h c (by simp))
      have hrest := ih fun d hd => h d (List.mem_cons_of_mem c hd)
      rw [ofDigitChars_cons_eq, List.length_cons, pow_succ]
      have hplace : 10 ^ rest.length * (c.toNat - 48) ≤ 10 ^ rest.length * 9 :=
        Nat.mul_le_mul_left _ (by omega)
      omega

theorem pow_le_ofDigitChars {c : Char} {digits : List Char}
    (hc : c.isDigit = true) (hne : c ≠ '0') :
    10 ^ digits.length ≤ Nat.ofDigitChars 10 (c :: digits) 0 := by
  have hrange := isDigit_iff.1 hc
  have hcode : c.toNat ≠ 48 := by
    intro heq
    apply hne
    rw [← Char.ofNat_toNat c, heq]
  rw [ofDigitChars_cons_eq]
  have hplace : 10 ^ digits.length * 1 ≤ 10 ^ digits.length * (c.toNat - 48) :=
    Nat.mul_le_mul_left _ (by omega)
  omega

theorem ofDigitChars_dropWhile_zero (digits : List Char) :
    Nat.ofDigitChars 10 (digits.dropWhile (· == '0')) 0 =
      Nat.ofDigitChars 10 digits 0 := by
  induction digits with
  | nil => rfl
  | cons c rest ih =>
      by_cases hc : c = '0'
      · subst c
        simpa [Nat.ofDigitChars_cons] using ih
      · simp [hc]

/-- The number that digits write is at least the power of ten with as many
zeros as there are significant digits behind the first. -/
theorem pow_le_ofDigitChars_of_lt_length {digits : List Char} {k : Nat}
    (h : ∀ c ∈ digits, c.isDigit = true)
    (hk : k < (digits.dropWhile (· == '0')).length) :
    10 ^ k ≤ Nat.ofDigitChars 10 digits 0 := by
  rw [← ofDigitChars_dropWhile_zero]
  cases hdrop : digits.dropWhile (· == '0') with
  | nil => simp [hdrop] at hk
  | cons c rest =>
      have hmem : c ∈ digits := by
        apply List.dropWhile_subset (· == '0')
        simp [hdrop]
      have hne : c ≠ '0' := by
        have hhead := List.head?_dropWhile_not (· == '0') digits
        simpa [hdrop] using hhead
      simp only [hdrop, List.length_cons] at hk
      calc
        10 ^ k ≤ 10 ^ rest.length :=
          Nat.pow_le_pow_right (by decide) (by omega)
        _ ≤ Nat.ofDigitChars 10 (c :: rest) 0 :=
          pow_le_ofDigitChars (h c hmem) hne

theorem ofDigitChars_append_replicate_zero (digits : List Char) (n : Nat) :
    Nat.ofDigitChars 10 (digits ++ List.replicate n '0') 0 =
      Nat.ofDigitChars 10 digits 0 * 10 ^ n := by
  rw [Nat.ofDigitChars_append, Nat.ofDigitChars_replicate_zero, Nat.mul_comm]

/-- The decimal text of a positive number does not start with a zero. -/
theorem head_toDigits_ne_zero {n : Nat} (hn : 0 < n) :
    ∀ c ∈ (Nat.toDigits 10 n).head?, c ≠ '0' := by
  induction n using Nat.base_induction 10 (by decide) with
  | single m hm =>
      have hdigits : ∀ d < 10, 0 < d → d.digitChar ≠ '0' := by decide
      rw [Nat.toDigits_of_lt_base hm]
      intro c hc
      obtain rfl : m.digitChar = c := by simpa using hc
      exact hdigits m hm hn
  | digit m k hk hm ih =>
      rw [← Nat.toDigits_append_toDigits (by decide) hm hk,
        List.head?_append, Option.or_of_isSome (by simp)]
      exact ih hm

end Number
end IndexAccess
