import IndexAccess.Json.Printer
import IndexAccess.Json.Reader
import IndexAccess.Proofs.Binary64.Shortest
import IndexAccess.Proofs.Number.Digits

/-!
# Printed numbers are read back

The reader takes digits, a point with digits after it and an exponent, as far
as each of them goes.  The text of an integer is read as that integer.  The
text of a finite number, in whichever layout, is read as a decimal of the same
value as the shortest one of the number, and so it is rounded to that number
again.
-/

namespace IndexAccess
namespace Json

open CodePoint (ofChars)

/-- A text that does not go on with a digit. -/
def StopsDigits (rest : List CodePoint) : Prop :=
  ∀ p ∈ rest.head?, isDigit p = false

/-- A text that does not go on with any part of a number. -/
def StopsNumber (rest : List CodePoint) : Prop :=
  ∀ p ∈ rest.head?, isDigit p = false ∧ p ≠ .char '.' ∧
    p ≠ .char 'e' ∧ p ≠ .char 'E'

/-- Digits that may stand before a point. -/
structure IsWhole (digits : List Char) : Prop where
  digit : ∀ c ∈ digits, c.isDigit = true
  start : digits = ['0'] ∨ ∃ c rest, digits = c :: rest ∧ c ≠ '0'

def minus (negative : Bool) : List Char :=
  if negative then ['-'] else []

/-! ## The parts of a number -/

section Reading

variable {negative : Bool} {whole fraction power : List Char}
  {rest : List CodePoint}

theorem StopsNumber.stopsDigits (h : StopsNumber rest) : StopsDigits rest :=
  fun p hp => (h p hp).1

theorem stopsDigits_cons {p : CodePoint} (hp : isDigit p = false) :
    StopsDigits (p :: rest) := by
  intro q hq
  obtain rfl : p = q := by simpa using hq
  exact hp

theorem isDigit_of_mem_ofChars {digits : List Char}
    (hdigits : ∀ c ∈ digits, c.isDigit = true) :
    ∀ p ∈ ofChars digits, isDigit p = true := by
  intro p hp
  obtain ⟨c, hc, rfl⟩ := List.mem_map.1 hp
  exact hdigits c hc

theorem leadingDigits_append {digits : List Char}
    (hdigits : ∀ c ∈ digits, c.isDigit = true) (hrest : StopsDigits rest) :
    leadingDigits (ofChars digits ++ rest) = digits := by
  have hnone : rest.takeWhile isDigit = [] := by
    cases rest with
    | nil => rfl
    | cons p rest => simp [hrest p (by simp)]
  rw [leadingDigits, List.takeWhile_append_of_pos
    (isDigit_of_mem_ofChars hdigits), hnone, List.append_nil,
      CodePoint.map_toChar_ofChars]

theorem afterDigits_append {digits : List Char}
    (hdigits : ∀ c ∈ digits, c.isDigit = true) (hrest : StopsDigits rest) :
    afterDigits (ofChars digits ++ rest) = rest := by
  rw [afterDigits, List.dropWhile_append_of_pos
    (isDigit_of_mem_ofChars hdigits)]
  cases rest with
  | nil => rfl
  | cons p rest => simp [hrest p (by simp)]

theorem IsWhole.ne_nil (h : IsWhole whole) : whole ≠ [] := by
  rcases h.start with rfl | ⟨c, rest, rfl, -⟩ <;> simp

theorem IsWhole.exists_cons (h : IsWhole whole) :
    ∃ c tail, whole = c :: tail ∧ c.isDigit = true := by
  obtain ⟨c, tail, rfl⟩ := List.exists_cons_of_ne_nil h.ne_nil
  exact ⟨c, tail, rfl, h.digit c (by simp)⟩

theorem splitMinus_minus (h : IsWhole whole) :
    splitMinus (ofChars (minus negative) ++ (ofChars whole ++ rest)) =
      (negative, ofChars whole ++ rest) := by
  obtain ⟨c, tail, rfl, hc⟩ := h.exists_cons
  cases negative with
  | true => rfl
  | false =>
      have hne : c ≠ '-' := by
        rintro rfl
        simp at hc
      simp [minus, splitMinus, hne]

theorem splitWhole_append (h : IsWhole whole) (hrest : StopsDigits rest) :
    splitWhole (ofChars whole ++ rest) = (whole, rest) := by
  rcases h.start with rfl | ⟨c, tail, rfl, hc⟩
  · rfl
  · have hleading := leadingDigits_append h.digit hrest
    have hafter := afterDigits_append h.digit hrest
    rw [CodePoint.ofChars_cons, List.cons_append] at hleading hafter ⊢
    rw [splitWhole, hleading, hafter]
    intro other heq
    exact hc (CodePoint.char.inj (List.cons.inj heq).1)

theorem splitFraction?_point (hne : fraction ≠ [])
    (hfraction : ∀ c ∈ fraction, c.isDigit = true) (hrest : StopsDigits rest) :
    splitFraction? (.char '.' :: (ofChars fraction ++ rest)) =
      some (fraction, rest) := by
  rw [splitFraction?, leadingDigits_append hfraction hrest,
    afterDigits_append hfraction hrest]
  simp [hne]

theorem splitFraction?_eq_none (hrest : ∀ p ∈ rest.head?, p ≠ .char '.') :
    splitFraction? rest = none := by
  cases rest with
  | nil => rfl
  | cons p rest =>
      have hp : p ≠ .char '.' := hrest p (by simp)
      simp [splitFraction?, hp]

theorem splitExponent?_power (below : Bool) (hne : power ≠ [])
    (hpower : ∀ c ∈ power, c.isDigit = true) (hrest : StopsDigits rest) :
    splitExponent? (.char 'e' :: .char (if below then '-' else '+') ::
        (ofChars power ++ rest)) =
      some (Number.withSign below (Nat.ofDigitChars 10 power 0), rest) := by
  have hsign : splitSign (.char (if below then '-'
      else '+') :: (ofChars power ++ rest)) =
      (below, ofChars power ++ rest) := by
    cases below <;> rfl
  rw [splitExponent?, hsign]
  dsimp only
  rw [leadingDigits_append hpower hrest, afterDigits_append hpower hrest]
  simp [hne]

theorem splitExponent?_eq_none
    (hrest : ∀ p ∈ rest.head?, p ≠ .char 'e' ∧ p ≠ .char 'E') :
    splitExponent? rest = none := by
  cases rest with
  | nil => rfl
  | cons p rest =>
      have hp := hrest p (by simp)
      simp [splitExponent?, hp.1, hp.2]

theorem readPlain_eq_readNumber (h : IsWhole whole) (rest : List CodePoint) :
    readPlain (ofChars (minus negative) ++ (ofChars whole ++ rest)) =
      readNumber (ofChars (minus negative) ++ (ofChars whole ++ rest)) := by
  obtain ⟨c, tail, rfl, hc⟩ := h.exists_cons
  have hnone : (words.find? fun word => (ofChars word.1).isPrefixOf
      (ofChars (minus negative) ++ (ofChars (c :: tail) ++ rest))) = none := by
    have hdigit : ∀ d ∈ ['n', 't', 'f', 'N', 'I', '-'], d.isDigit = false := by
      simp
    have hletter : ∀ d ∈ ['n', 't', 'f', 'N', 'I', '-'], d ≠ c := by
      rintro d hd rfl
      rw [hdigit d hd] at hc
      cases hc
    simp only [List.mem_cons, List.not_mem_nil, or_false, forall_eq_or_imp,
      forall_eq] at hletter
    cases negative <;> simp [words, minus, hletter]
  rw [readPlain, hnone]

theorem readNumber_integer (hwhole : IsWhole whole)
    (hrest : StopsNumber rest) :
    readNumber (ofChars (minus negative) ++ (ofChars whole ++ rest)) =
      (integerOfDigits negative whole).map fun value => (value, rest) := by
  have hfraction := splitFraction?_eq_none fun p hp => (hrest p hp).2.1
  have hexponent := splitExponent?_eq_none fun p hp => (hrest p hp).2.2
  simp only [readNumber, splitMinus_minus hwhole,
    splitWhole_append hwhole hrest.stopsDigits, hfraction, hexponent,
    List.isEmpty_iff, hwhole.ne_nil, Option.map_none, Option.getD_none,
    Option.isNone_none, Bool.and_self, if_false, if_true]

theorem readNumber_positional (hwhole : IsWhole whole) (hne : fraction ≠ [])
    (hfraction : ∀ c ∈ fraction, c.isDigit = true) (hrest : StopsNumber rest) :
    readNumber (ofChars (minus negative) ++ (ofChars whole ++
        .char '.' :: (ofChars fraction ++ rest))) =
      .ok (.number (Number.ofDigits negative whole fraction 0), rest) := by
  have hsplit : splitWhole
      (ofChars whole ++ .char '.' :: (ofChars fraction ++ rest)) =
      (whole, .char '.' :: (ofChars fraction ++ rest)) :=
    splitWhole_append hwhole (stopsDigits_cons (by decide))
  have hpoint := splitFraction?_point hne hfraction hrest.stopsDigits
  have hexponent := splitExponent?_eq_none fun p hp => (hrest p hp).2.2
  simp only [readNumber, splitMinus_minus hwhole, hsplit, hpoint, hexponent,
    List.isEmpty_iff, hwhole.ne_nil, Option.map_some, Option.map_none,
    Option.getD_some, Option.getD_none, Option.isNone_some, Bool.false_and,
    Bool.false_eq_true, if_false]

theorem readNumber_scientific {below : Bool} (hwhole : IsWhole whole)
    (hfraction : ∀ c ∈ fraction, c.isDigit = true) (hne : power ≠ [])
    (hpower : ∀ c ∈ power, c.isDigit = true) (hrest : StopsDigits rest) :
    readNumber (ofChars (minus negative) ++ (ofChars whole ++
        (ofChars (if fraction.isEmpty then [] else '.' :: fraction) ++
          .char 'e' :: .char (if below then '-' else '+') ::
            (ofChars power ++ rest)))) =
      .ok (.number (Number.ofDigits negative whole fraction
        (Number.withSign below (Nat.ofDigitChars 10 power 0))), rest) := by
  have hexponent := splitExponent?_power below hne hpower hrest
  generalize htail : (.char 'e' :: .char (if below then '-' else '+') ::
    (ofChars power ++ rest) : List CodePoint) = tail at hexponent ⊢
  have hstop : StopsDigits tail := by
    rw [← htail]
    exact stopsDigits_cons (by decide)
  cases fraction with
  | nil =>
      have hnone : splitFraction? tail = none := by
        rw [← htail]
        exact splitFraction?_eq_none (by simp)
      simp only [readNumber, splitMinus_minus hwhole, List.isEmpty_nil,
        if_true, CodePoint.ofChars_nil, List.nil_append,
        splitWhole_append hwhole hstop, hnone, hexponent, List.isEmpty_iff,
        hwhole.ne_nil, Option.map_some, Option.map_none, Option.getD_some,
        Option.getD_none, Option.isNone_some, Bool.and_false,
        Bool.false_eq_true, if_false]
  | cons c digits =>
      have hpoint := splitFraction?_point
        (List.cons_ne_nil c digits) hfraction hstop
      have hsplit : splitWhole (ofChars whole ++
            .char '.' :: (ofChars (c :: digits) ++ tail)) =
          (whole, .char '.' :: (ofChars (c :: digits) ++ tail)) :=
        splitWhole_append hwhole (stopsDigits_cons (by decide))
      rw [List.isEmpty_cons, if_neg (by decide), CodePoint.ofChars_cons,
        List.cons_append]
      simp only [readNumber, splitMinus_minus hwhole, hsplit, hpoint,
        hexponent, List.isEmpty_iff, hwhole.ne_nil, Option.map_some,
        Option.getD_some, Option.isNone_some, Bool.and_false,
        Bool.false_eq_true, if_false]

end Reading

/-! ## Texts of integers -/

section Integers

theorem isWhole_toDigits (n : Nat) : IsWhole (Nat.toDigits 10 n) := by
  refine ⟨fun c hc => Nat.isDigit_of_mem_toDigits (by decide) (by decide) hc,
    ?_⟩
  rcases Nat.eq_zero_or_pos n with rfl | hpos
  · exact .inl rfl
  · obtain ⟨c, rest, heq⟩ :=
      List.exists_cons_of_ne_nil (Nat.toDigits_ne_nil (n := n) (b := 10))
    refine .inr ⟨c, rest, heq, ?_⟩
    exact Number.head_toDigits_ne_zero hpos c (by rw [heq]; rfl)

theorem toList_integerText (i : Int) :
    (Number.integerText i).toList =
      minus (decide (i < 0)) ++ Nat.toDigits 10 i.natAbs := by
  unfold Number.integerText minus
  by_cases hneg : i < 0 <;> simp [hneg]

theorem withSign_natAbs (i : Int) :
    Number.withSign (decide (i < 0)) i.natAbs = i := by
  unfold Number.withSign
  by_cases hneg : i < 0
  · rw [if_pos (decide_eq_true hneg)]
    omega
  · rw [if_neg (by simpa using hneg)]
    omega

theorem readPlain_integerText {i : Int} {rest : List CodePoint}
    (hi : Number.isWritable i = true) (hrest : StopsNumber rest) :
    readPlain (ofChars (Number.integerText i).toList ++ rest) =
      .ok (.integer i, rest) := by
  have hlength := (Number.isWritable_iff i).1 hi
  rw [toList_integerText, CodePoint.ofChars_append, List.append_assoc,
    readPlain_eq_readNumber (isWhole_toDigits _),
    readNumber_integer (isWhole_toDigits _) hrest, integerOfDigits,
    if_neg (Nat.not_lt.2 hlength), Nat.ofDigitChars_ten_toDigits,
    withSign_natAbs]
  rfl

end Integers

/-! ## Texts of binary64 numbers -/

section Numbers

open Binary64

variable {digits : List Char} {exponent : ℤ}

/-- The value of digits of which the first counts by a power of ten. -/
def digitsValue (digits : List Char) (exponent : ℤ) : ℚ :=
  Nat.ofDigitChars 10 digits 0 * 10 ^ (exponent + 1 - digits.length)

/-- A text that is read, after either sign, as a decimal of a value. -/
def ReadsAs (text : List Char) (value : ℚ) : Prop :=
  ∀ negative rest, StopsNumber rest → ∃ (n : ℕ) (e : ℤ),
    readPlain (ofChars (minus negative) ++ (ofChars text ++ rest)) =
      .ok (.number (.ofDecimal negative n e), rest) ∧ (n : ℚ) * 10 ^ e = value

/-- Digits without a zero at their front. -/
structure IsSignificant (digits : List Char) : Prop where
  digit : ∀ c ∈ digits, c.isDigit = true
  start : ∃ c rest, digits = c :: rest ∧ c ≠ '0'

theorem isWhole_zero : IsWhole ['0'] :=
  ⟨by simp, .inl rfl⟩

theorem isDigit_of_mem_replicate {n : ℕ} {c : Char}
    (hc : c ∈ List.replicate n '0') :
    c.isDigit = true := by
  rw [List.eq_of_mem_replicate hc]
  rfl

theorem IsSignificant.isWhole_take (h : IsSignificant digits) (k n : ℕ) :
    IsWhole (digits.take (k + 1) ++ List.replicate n '0') := by
  obtain ⟨c, tail, rfl, hc⟩ := h.start
  refine ⟨?_, .inr ⟨c, _, rfl, hc⟩⟩
  intro d hd
  rcases List.mem_append.1 hd with hd | hd
  · exact h.digit d (List.mem_of_mem_take hd)
  · exact isDigit_of_mem_replicate hd

theorem readsAs_of_positional {whole fraction : List Char} {value : ℚ}
    (hwhole : IsWhole whole) (hne : fraction ≠ [])
    (hfraction : ∀ c ∈ fraction, c.isDigit = true)
    (hvalue : (Nat.ofDigitChars 10 (whole ++ fraction) 0 : ℚ) * 10 ^
      (0 - fraction.length : ℤ) =
      value) :
    ReadsAs (whole ++ '.' :: fraction) value := by
  intro negative rest hrest
  refine ⟨Nat.ofDigitChars 10 (whole ++ fraction) 0, 0 - fraction.length, ?_,
    hvalue⟩
  rw [CodePoint.ofChars_append, CodePoint.ofChars_cons, List.append_assoc,
    List.cons_append, readPlain_eq_readNumber hwhole,
    readNumber_positional hwhole hne hfraction hrest, Number.ofDigits]

theorem readsAs_of_scientific {whole fraction power : List Char}
    {below : Bool} {value : ℚ} (hwhole : IsWhole whole)
    (hfraction : ∀ c ∈ fraction, c.isDigit = true) (hne : power ≠ [])
    (hpower : ∀ c ∈ power, c.isDigit = true)
    (hvalue : (Nat.ofDigitChars 10 (whole ++ fraction) 0 : ℚ) *
      10 ^ (Number.withSign below (Nat.ofDigitChars 10 power 0) -
        fraction.length) = value) :
    ReadsAs (whole ++ (if fraction.isEmpty then [] else '.' :: fraction) ++
      'e' :: (if below then '-' else '+') :: power) value := by
  intro negative rest hrest
  refine ⟨Nat.ofDigitChars 10 (whole ++ fraction) 0, _, ?_, hvalue⟩
  rw [CodePoint.ofChars_append, CodePoint.ofChars_append,
    CodePoint.ofChars_cons, CodePoint.ofChars_cons, List.append_assoc,
    List.append_assoc, List.cons_append, List.cons_append,
    readPlain_eq_readNumber hwhole,
    readNumber_scientific hwhole hfraction hne hpower hrest.stopsDigits,
    Number.ofDigits]

theorem readsAs_positional_below (hdigits : IsSignificant digits)
    (hneg : exponent < 0) :
    ReadsAs (positional digits exponent) (digitsValue digits exponent) := by
  obtain ⟨n, hn⟩ : ∃ n : ℕ, -exponent - 1 = n :=
    ⟨(-exponent - 1).toNat, by omega⟩
  have hne : List.replicate n '0' ++ digits ≠ [] := by
    obtain ⟨c, tail, rfl, -⟩ := hdigits.start
    simp
  have hfraction : ∀ c ∈ List.replicate n '0' ++ digits, c.isDigit = true := by
    intro c hc
    rcases List.mem_append.1 hc with hc | hc
    · exact isDigit_of_mem_replicate hc
    · exact hdigits.digit c hc
  have htext : positional digits exponent =
      ['0'] ++ '.' :: (List.replicate n '0' ++ digits) := by
    rw [positional, if_pos hneg, hn, Int.toNat_natCast]
    rfl
  rw [htext]
  apply readsAs_of_positional isWhole_zero hne hfraction
  have hvalue : Nat.ofDigitChars 10
      (['0'] ++ (List.replicate n '0' ++ digits)) 0 =
      Nat.ofDigitChars 10 digits 0 := by
    rw [Nat.ofDigitChars_append, Nat.ofDigitChars_append]
    simp [Nat.ofDigitChars_cons]
  rw [hvalue, digitsValue, List.length_append, List.length_replicate]
  congr 2
  omega

theorem readsAs_positional_above (hdigits : IsSignificant digits)
    (hnonneg : 0 ≤ exponent) :
    ReadsAs (positional digits exponent) (digitsValue digits exponent) := by
  obtain ⟨k, rfl⟩ := Int.eq_ofNat_of_zero_le hnonneg
  have hwhole := hdigits.isWhole_take k (k + 1 - digits.length)
  rw [positional, if_neg (by omega), Int.toNat_natCast]
  dsimp only
  by_cases hmore : (digits.drop (k + 1)).isEmpty = true
  · -- All digits stand before the point, and a zero after it.
    have hlength : digits.length ≤ k + 1 := by
      rwa [List.isEmpty_iff, List.drop_eq_nil_iff] at hmore
    rw [if_pos hmore]
    apply readsAs_of_positional hwhole (by simp) isWhole_zero.digit
    have hzeros : List.replicate (k + 1 - digits.length) '0' ++ ['0'] =
        List.replicate (k + 1 - digits.length + 1) '0' := by
      rw [List.replicate_succ']
    rw [List.take_of_length_le hlength, List.append_assoc, hzeros,
      Number.ofDigitChars_append_replicate_zero, digitsValue, Nat.cast_mul,
      mul_assoc]
    congr 1
    rw [Nat.cast_pow, Nat.cast_ofNat, ← zpow_natCast,
      ← zpow_add₀ (by norm_num)]
    congr 1
    rw [List.length_singleton]
    omega
  · have hlength : k + 1 < digits.length := by
      rwa [List.isEmpty_iff, List.drop_eq_nil_iff, not_le] at hmore
    have hfraction : ∀ c ∈ digits.drop (k + 1), c.isDigit = true :=
      fun c hc => hdigits.digit c (List.mem_of_mem_drop hc)
    have hnone : k + 1 - digits.length = 0 := by omega
    rw [if_neg hmore]
    apply readsAs_of_positional hwhole (by simpa using hmore) hfraction
    rw [hnone, List.replicate_zero, List.append_nil, List.take_append_drop,
      digitsValue, List.length_drop]
    congr 2
    omega

theorem readsAs_scientific (layout : Layout) (hdigits : IsSignificant digits) :
    ReadsAs (scientific layout digits exponent)
      (digitsValue digits exponent) := by
  have hwhole := hdigits.isWhole_take 0 0
  rw [List.replicate_zero, List.append_nil] at hwhole
  have hfraction : ∀ c ∈ digits.drop 1, c.isDigit = true :=
    fun c hc => hdigits.digit c (List.mem_of_mem_drop hc)
  set power := List.replicate
    (layout.exponentDigits - (Nat.toDigits 10 exponent.natAbs).length) '0' ++
      Nat.toDigits 10 exponent.natAbs with hpower
  have hne : power ≠ [] := by simp [hpower]
  have hpower_digits : ∀ c ∈ power, c.isDigit = true := by
    intro c hc
    rcases List.mem_append.1 hc with hc | hc
    · exact isDigit_of_mem_replicate hc
    · exact (isWhole_toDigits _).digit c hc
  have hexponent : Number.withSign (decide (exponent < 0))
      (Nat.ofDigitChars 10 power 0) =
      exponent := by
    rw [hpower, Nat.ofDigitChars_append, Nat.ofDigitChars_replicate_zero,
      Nat.mul_zero, Nat.ofDigitChars_ten_toDigits, withSign_natAbs]
  have htext : scientific layout digits exponent =
      digits.take 1 ++ (if (digits.drop 1).isEmpty then []
        else '.' :: digits.drop 1) ++
        'e' :: (if decide (exponent < 0) then '-' else '+') :: power := by
    unfold scientific
    simp [hpower]
  rw [htext]
  apply readsAs_of_scientific hwhole hfraction hne hpower_digits
  obtain ⟨c, tail, rfl, -⟩ := hdigits.start
  rw [List.take_append_drop, hexponent, digitsValue]
  congr 2
  simp only [List.drop_succ_cons, List.drop_zero, List.length_cons]
  omega

theorem readsAs_positional (hdigits : IsSignificant digits) :
    ReadsAs (positional digits exponent) (digitsValue digits exponent) := by
  by_cases hneg : exponent < 0
  · exact readsAs_positional_below hdigits hneg
  · exact readsAs_positional_above hdigits (not_lt.1 hneg)

theorem dropTrailingZeros_append (digits : List Char) :
    ∃ n, digits = dropTrailingZeros digits ++ List.replicate n '0' := by
  have hzeros : digits.reverse.takeWhile (· == '0') =
      List.replicate (digits.reverse.takeWhile (· == '0')).length '0' := by
    refine List.eq_replicate_iff.2 ⟨rfl, fun c hc => ?_⟩
    have hzero := List.all_eq_true.1 List.all_takeWhile c hc
    exact beq_iff_eq.1 hzero
  refine ⟨(digits.reverse.takeWhile (· == '0')).length, ?_⟩
  have hsplit := List.takeWhile_append_dropWhile (p := (· == '0'))
    (l := digits.reverse)
  rw [hzeros] at hsplit
  rw [dropTrailingZeros, ← List.reverse_replicate, ← List.reverse_append,
    hsplit, List.reverse_reverse]

theorem digitsValue_dropTrailingZeros (digits : List Char) (exponent : ℤ) :
    digitsValue (dropTrailingZeros digits) exponent =
      digitsValue digits exponent := by
  obtain ⟨n, hn⟩ := dropTrailingZeros_append digits
  generalize dropTrailingZeros digits = kept at hn ⊢
  subst hn
  rw [digitsValue, digitsValue, Number.ofDigitChars_append_replicate_zero,
    Nat.cast_mul, mul_assoc]
  congr 1
  rw [Nat.cast_pow, Nat.cast_ofNat, ← zpow_natCast, ← zpow_add₀ (by norm_num),
    List.length_append, List.length_replicate]
  congr 1
  omega

theorem isSignificant_toDigits {n : ℕ} (hn : 0 < n) :
    IsSignificant (dropTrailingZeros (Nat.toDigits 10 n)) := by
  have hstart := Number.head_toDigits_ne_zero hn
  have hdigit := (isWhole_toDigits n).digit
  obtain ⟨k, hk⟩ := dropTrailingZeros_append (Nat.toDigits 10 n)
  generalize dropTrailingZeros (Nat.toDigits 10 n) = kept at hk
  rw [hk] at hstart hdigit
  refine ⟨fun c hc => hdigit c (List.mem_append_left _ hc), ?_⟩
  cases kept with
  | nil =>
      cases k with
      | zero => simp at hk
      | succ k => exact absurd rfl (hstart '0' rfl)
  | cons c tail => exact ⟨c, tail, rfl, hstart c rfl⟩

/-- A positive number is read as a decimal of the value of its shortest one. -/
theorem readsAs_positiveText (layout : Layout) {x : FiniteBinary64}
    (hx : 0 < x.mantissa) :
    ReadsAs (positiveText layout x)
      ((shortest x).digits * 10 ^ (shortest x).exponent) := by
  have hpos : 0 < (shortest x).digits := by
    rcases Nat.eq_zero_or_pos (shortest x).digits with hzero | hpos
    · have hvalue := (roundsTo_shortest hx).pos hx
      rw [hzero] at hvalue
      simp at hvalue
    · exact hpos
  have hdigits := isSignificant_toDigits hpos
  have hvalue : digitsValue
      (dropTrailingZeros (Nat.toDigits 10 (shortest x).digits))
      ((shortest x).exponent +
        (Nat.toDigits 10 (shortest x).digits).length - 1) =
      (shortest x).digits * 10 ^ (shortest x).exponent := by
    rw [digitsValue_dropTrailingZeros, digitsValue,
      Nat.ofDigitChars_ten_toDigits]
    congr 2
    omega
  rw [← hvalue]
  unfold positiveText
  dsimp only
  split
  next => exact readsAs_positional hdigits
  next => exact readsAs_scientific layout hdigits

theorem eq_zero_of_isZero {x : FiniteBinary64} (h : x.isZero = true) :
    x = .zero x.negative := by
  obtain ⟨negative, mantissa, scale, canonical⟩ := x
  obtain rfl : mantissa = 0 := beq_iff_eq.1 h
  obtain rfl : scale = -1074 := canonical.2.2.2.resolve_left (by norm_num)
  rfl

/-- The text of a finite number is read as the number, in any layout. -/
theorem readPlain_finiteText (layout : Layout) (x : FiniteBinary64)
    {rest : List CodePoint} (hrest : StopsNumber rest) :
    readPlain (ofChars (finiteText layout x) ++ rest) =
      .ok (.number (.finite x), rest) := by
  unfold finiteText
  by_cases hzero : x.isZero = true
  · rw [if_pos hzero, CodePoint.ofChars_append, List.append_assoc]
    have hread : readNumber (ofChars (minus x.negative) ++
        (ofChars ['0'] ++ .char '.' :: (ofChars ['0'] ++ rest))) = _ :=
      readNumber_positional isWhole_zero (by simp) isWhole_zero.digit hrest
    have hvalue : Number.ofDigits x.negative ['0'] ['0'] 0 = .finite x := by
      rw [eq_zero_of_isZero hzero]
      rfl
    rw [← readPlain_eq_readNumber isWhole_zero, hvalue] at hread
    exact hread
  · have hpos : 0 < x.mantissa := by
      simp [FiniteBinary64.isZero] at hzero
      omega
    rw [if_neg hzero, CodePoint.ofChars_append, List.append_assoc]
    obtain ⟨n, e, hread, hvalue⟩ :=
      readsAs_positiveText layout hpos x.negative rest hrest
    apply hread.trans
    rw [ofDecimal_of_roundsTo hpos (hvalue ▸ roundsTo_shortest hpos)]

end Numbers

end Json
end IndexAccess
