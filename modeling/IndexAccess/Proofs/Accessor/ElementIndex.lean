import IndexAccess.Accessor.ArrayElement
import IndexAccess.Proofs.Number.Numerals
import IndexAccess.Proofs.Outcome

/-!
# Indexes of array elements

A text of digits is judged by the number of its significant digits first and by
their value second.  The lemmas below show that the two tests together compare
the number that the whole text writes with the greatest index, whatever the
length of the text.  Reading an element under a text is therefore reading it
under an integer, or a failure of access.
-/

namespace IndexAccess
namespace ArrayElement

/-- The number that a text of ASCII digits writes, whatever its length. -/
def digitValue? : Value → Option Nat
  | .text t =>
    if isDigitText t then some (Nat.ofDigitChars 10 t.chars 0) else none
  | _ => none

theorem isDigit_of_isDigitText {t : Text} (h : isDigitText t = true) :
    ∀ c ∈ t.chars, c.isDigit = true := by
  simp only [isDigitText, Bool.and_eq_true, List.all_eq_true] at h
  exact h.2

theorem digitValue?_eq_some_iff {index : Value} {d : Nat} :
    digitValue? index = some d ↔
      ∃ t, index = .text t ∧ isDigitText t = true ∧
        Nat.ofDigitChars 10 t.chars 0 = d := by
  cases index <;> simp [digitValue?]

theorem ofDigitChars_significantDigits (t : Text) :
    Nat.ofDigitChars 10 (significantDigits t) 0 =
      Nat.ofDigitChars 10 t.chars 0 := by
  rw [← Number.ofDigitChars_dropWhile_zero t.chars, significantDigits]
  cases t.chars.dropWhile (· == '0') <;> rfl

theorem integerOfText_significantDigits {t : Text} (h : isDigitText t = true)
    (hshort : (significantDigits t).length ≤ maxIndexDigits) :
    Value.integerOfText (String.ofList (significantDigits t)) =
      .ok (Nat.ofDigitChars 10 t.chars 0 : Nat) := by
  have hne : significantDigits t ≠ [] := by
    rw [significantDigits]
    cases t.chars.dropWhile (· == '0') <;> simp
  have hdigits : ∀ c ∈ significantDigits t, c.isDigit = true := by
    intro c hc
    rw [significantDigits] at hc
    split at hc
    next =>
      rw [List.mem_singleton.1 hc]
      rfl
    next => exact isDigit_of_isDigitText h c (List.dropWhile_subset _ hc)
  have hlimit : maxIndexDigits ≤ Number.digitLimit := by decide
  rw [Value.integerOfText, Text.toString_ofString,
    Number.readInteger_of_digits hne hdigits, if_neg (by omega),
    ofDigitChars_significantDigits]
  rfl

/-- Counting significant digits before comparing their value amounts to
comparing the value of the whole text.  No text of digits fails because its
digits are too many to be read. -/
theorem indexOfDigits_eq {t : Text} (h : isDigitText t = true) :
    indexOfDigits t =
      if Nat.ofDigitChars 10 t.chars 0 ≤ maxIndex then
        .ok (Nat.ofDigitChars 10 t.chars 0 : Nat)
      else .error (.index (outOfRange t)) := by
  have hbound : maxIndex < 10 ^ maxIndexDigits := by decide
  rw [indexOfDigits]
  by_cases hlong : maxIndexDigits < (significantDigits t).length
  · have hlength : maxIndexDigits < (t.chars.dropWhile (· == '0')).length := by
      rw [significantDigits] at hlong
      split at hlong
      next => exact absurd hlong (by decide)
      next => exact hlong
    have hvalue := Number.pow_le_ofDigitChars_of_lt_length
      (isDigit_of_isDigitText h) hlength
    have hlarge : ¬Nat.ofDigitChars 10 t.chars 0 ≤ maxIndex := by omega
    rw [if_pos hlong, if_neg hlarge]
  · rw [if_neg hlong, integerOfText_significantDigits h (Nat.not_lt.1 hlong)]
    by_cases hvalue : Nat.ofDigitChars 10 t.chars 0 ≤ maxIndex
    · rw [if_pos hvalue]
      exact if_neg (by omega)
    · rw [if_neg hvalue]
      exact if_pos (by omega)

theorem integerIndex_of_le {index : Value} {d : Nat}
    (hindex : digitValue? index = some d) (hd : d ≤ maxIndex) :
    integerIndex index = .ok (d : Int) := by
  obtain ⟨t, rfl, htext, rfl⟩ := digitValue?_eq_some_iff.1 hindex
  simp [integerIndex, htext, indexOfDigits_eq htext, hd]

theorem integerIndex_of_lt {index : Value} {d : Nat}
    (hindex : digitValue? index = some d) (hd : maxIndex < d) :
    ∃ reason, integerIndex index = .error (.index (.inaccessible reason)) := by
  obtain ⟨t, rfl, htext, rfl⟩ := digitValue?_eq_some_iff.1 hindex
  simp [integerIndex, htext, indexOfDigits_eq htext, Nat.not_le.2 hd,
    outOfRange]

theorem integerIndex_of_not_isIndex {index : Value}
    (h : isIndex index = false) :
    ∃ failure, integerIndex index = .error failure := by
  have hrefuse : ∀ v, ∃ failure, integerIndex.refuse v = .error failure := by
    intro v
    unfold integerIndex.refuse
    cases v.display with
    | error failure => exact ⟨failure, rfl⟩
    | ok shown => exact ⟨_, rfl⟩
  cases index with
  | integer i => simp [isIndex] at h
  | text t =>
      have htext : isDigitText t = false := by
        simpa [isIndex, isNumericText] using h
      simpa [integerIndex, htext] using hrefuse (.text t)
  | _ => exact hrefuse _

/-- The integers of indexes: an integer itself, and the value of a text of
digits up to the greatest index. -/
theorem integerIndex_isOk_iff (index : Value) :
    (∃ i, integerIndex index = .ok i) ↔
      isIndex index = true ∧ ∀ d, digitValue? index = some d →
      d ≤ maxIndex := by
  constructor
  · rintro ⟨i, hi⟩
    constructor
    · by_contra hnot
      obtain ⟨failure, hfailure⟩ :=
        integerIndex_of_not_isIndex (Bool.eq_false_iff.2 hnot)
      simp [hi] at hfailure
    · intro d hd
      by_contra hlarge
      obtain ⟨reason, hreason⟩ := integerIndex_of_lt hd (Nat.not_le.1 hlarge)
      simp [hi] at hreason
  · rintro ⟨hindex, hrange⟩
    cases index with
    | integer i => exact ⟨i, rfl⟩
    | text t =>
        have htext : isDigitText t = true := by
          simpa [isIndex, isNumericText] using hindex
        have hvalue : digitValue? (.text t) =
            some (Nat.ofDigitChars 10 t.chars 0) := by
          simp [digitValue?, htext]
        exact ⟨_, integerIndex_of_le hvalue (hrange _ hvalue)⟩
    | _ => simp [isIndex, isNumericText] at hindex

section Read

variable (style : ArrayStyle) (cell : Option Cell) (items : List Node)

/-- Reading an element of an array depends on the index through its integer
only. -/
theorem read_array_congr {index other : Value}
    (h : integerIndex index = integerIndex other) :
    read (.node (.array style cell items)) index =
      read (.node (.array style cell items)) other := by
  simp only [read, items?, Node.items?, h]

theorem read_array_outcome (index : Value) :
    (read (.node (.array style cell items)) index).outcome =
      (integerIndex index).map fun i =>
        TypedValue.ofElement (Node.itemAt? items i) := by
  simp only [read, items?, Node.items?]
  cases integerIndex index <;> rfl

theorem ofElement_itemAt? (i : Int) :
    TypedValue.ofElement (Node.itemAt? items i) =
      if h : 0 ≤ i ∧ i < items.length then
        TypedValue.ofElement (some items[i.toNat])
      else .null := by
  by_cases hneg : i < 0
  · have hout : ¬(0 ≤ i ∧ i < items.length) := by omega
    simp [Node.itemAt?_of_neg items hneg, hout, TypedValue.ofElement]
  · rw [Node.itemAt?_of_nonneg items (by omega)]
    by_cases hin : i < items.length
    · have hnat : i.toNat < items.length := by omega
      simp [hin, Int.not_lt.1 hneg]
    · have hnat : items.length ≤ i.toNat := by omega
      simp [hin, List.getElem?_eq_none hnat, TypedValue.ofElement]

end Read

theorem read_outcome_of_not_array {target : Value} (h : items? target = none)
    (index : Value) :
    ∃ failure, (read target index).outcome = .error failure := by
  simp only [read, h]
  exact ⟨_, rfl⟩

theorem read_isOk_iff (target index : Value) :
    (∃ t, (read target index).outcome = .ok t) ↔
      canRead target index = true ∧ ∀ d, digitValue? index = some d →
      d ≤ maxIndex := by
  cases hitems : items? target with
  | none =>
      obtain ⟨failure, hfailure⟩ := read_outcome_of_not_array hitems index
      simp [hfailure, canRead, hitems]
  | some items =>
      have htarget : ∃ style cell, target =
          .node (.array style cell items) := by
        cases target with
        | node n => cases n <;> simp_all [items?, Node.items?]
        | _ => simp [items?] at hitems
      obtain ⟨style, cell, rfl⟩ := htarget
      simp only [read_array_outcome, canRead, hitems, Option.isSome_some,
        Bool.true_and]
      rw [← integerIndex_isOk_iff]
      cases integerIndex index <;> simp [Except.map]

/-- A text of digits reads the element that its value reads, at any length and
with any zeros in front, as long as the value is an index at all; a greater
value is inaccessible.  An integer reads the element at its position, and null
where there is none.  Nothing else is read. -/
theorem read_digits_eq_read_integer :
    (∀ style cell items index d, digitValue? index = some d →
      (d ≤ 2 ^ 31 - 1 →
        read (.node (.array style cell items)) index =
          read (.node (.array style cell items)) (.integer d)) ∧
      (2 ^ 31 - 1 < d → ∃ reason,
        (read (.node (.array style cell items)) index).outcome =
          .error (.index (.inaccessible reason)))) ∧
    (∀ style cell items (i : Int),
      (read (.node (.array style cell items)) (.integer i)).outcome =
        .ok (if h : 0 ≤ i ∧
          i < items.length then TypedValue.ofElement (some items[i.toNat])
          else .null)) ∧
    (∀ target index, (∃ t, (read target index).outcome = .ok t) ↔
      canRead target index = true ∧
        ∀ d, digitValue? index = some d → d ≤ 2 ^ 31 - 1) := by
  refine ⟨?_, ?_, read_isOk_iff⟩
  · intro style cell items index d hindex
    constructor
    · intro hd
      apply read_array_congr
      rw [integerIndex_of_le hindex hd]
      rfl
    · intro hd
      obtain ⟨reason, hreason⟩ := integerIndex_of_lt hindex hd
      exact ⟨reason, by rw [read_array_outcome, hreason]; rfl⟩
  · intro style cell items i
    rw [read_array_outcome, ← ofElement_itemAt?]
    rfl

/-- A padded text and one beyond the range, on an array of the derived
class. -/
theorem read_digits_padded_and_large :
    digitValue? (.text "0000000000001") = some 1 ∧
      read (.node (.array .derived none [.null, .integer 7]))
        (.text "0000000000001") =
        read (.node (.array .derived none [.null, .integer 7])) (.integer 1) ∧
      digitValue? (.text "2147483648") = some 2147483648 ∧
      ∃ reason,
        (read (.node (.array .derived none [.null, .integer 7]))
          (.text "2147483648")).outcome =
            .error (.index (.inaccessible reason)) := by
  have hpadded : digitValue? (.text "0000000000001") = some 1 := by decide
  have hlarge : digitValue? (.text "2147483648") = some 2147483648 := by decide
  exact ⟨hpadded, (read_digits_eq_read_integer.1 _ _ _ _ _ hpadded).1 (by
    decide), hlarge,
    (read_digits_eq_read_integer.1 _ _ _ _ _ hlarge).2 (by decide)⟩

end ArrayElement
end IndexAccess
