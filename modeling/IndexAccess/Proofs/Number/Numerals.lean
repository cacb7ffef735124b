import IndexAccess.Proofs.Number.Digits

/-!
# Texts of digits as integers

A text of nothing but digits, decimal or not, has neither a sign nor blanks in
it.  It is read as an integer if its digits are all decimal and if they are not
too many.  Any other digit is brought to a question mark, which no integer has.
-/

namespace IndexAccess

namespace Text

/-- The numbers of all blank characters. -/
def blankCodes : List Nat := [0x09, 0x0a, 0x0b, 0x0c, 0x0d, 0x1c, 0x1d, 0x1e,
  0x1f, 0x20, 0x85, 0xa0, 0x1680, 0x2000, 0x2001, 0x2002, 0x2003, 0x2004,
  0x2005, 0x2006, 0x2007, 0x2008, 0x2009, 0x200a, 0x2028, 0x2029, 0x202f,
  0x205f, 0x3000]

variable {c : Char}

theorem mem_blankCodes_of_isBlank (h : isBlank c = true) :
    c.toNat ∈ blankCodes := by
  simp only [isBlank, isAsciiBlank, Bool.or_eq_true, Bool.and_eq_true,
    decide_eq_true_eq, beq_iff_eq, List.contains_iff_mem, List.mem_cons,
    List.not_mem_nil, or_false] at h
  simp only [blankCodes, List.mem_cons, List.not_mem_nil, or_false]
  omega

theorem isBlank_eq_false_of_isDigitLike (h : isDigitLike c = true) :
    isBlank c = false := by
  have hcodes : ∀ code ∈ blankCodes,
      isDigitLike (Char.ofNat code) = false := by
    decide +kernel
  rw [← Bool.not_eq_true]
  intro hblank
  have hnot := hcodes c.toNat (mem_blankCodes_of_isBlank hblank)
  rw [Char.ofNat_toNat, h] at hnot
  cases hnot

/-- In ASCII there are no digits but the ten. -/
theorem isDigit_of_isDigitLike (h : isDigitLike c = true)
    (hascii : c.toNat < 128) :
    c.isDigit = true ∧ (decimalValue? c).isSome = true := by
  have hcodes : ∀ code < 128, isDigitLike (Char.ofNat code) = true →
      (Char.ofNat code).isDigit = true ∧
        (decimalValue? (Char.ofNat code)).isSome = true := by
    decide +kernel
  have hcode := hcodes c.toNat hascii
  rw [Char.ofNat_toNat] at hcode
  exact hcode h

theorem isDigitLike_of_decimal (h : (decimalValue? c).isSome = true) :
    isDigitLike c = true := by
  rw [isDigitLike, h, Bool.true_or]

end Text

namespace Number

/-- A text of decimal digits of any scripts that is short enough to be read. -/
structure IsNumeral (s : String) : Prop where
  ne_empty : s ≠ ""
  decimal : ∀ c ∈ s.toList, (Text.decimalValue? c).isSome = true
  short : s.length ≤ digitLimit

theorem asciiForm_of_decimal {c : Char}
    (h : (Text.decimalValue? c).isSome = true) :
    (asciiForm c).isDigit = true := by
  have hlike := Text.isDigitLike_of_decimal h
  have hdigits : ∀ value < 10, (Nat.digitChar value).isDigit = true := by
    decide
  rw [asciiForm, Text.isBlank_eq_false_of_isDigitLike hlike]
  rcases Option.isSome_iff_exists.1 h with ⟨value, hvalue⟩
  by_cases hascii : c.toNat < 127
  · rw [if_pos hascii]
    exact (Text.isDigit_of_isDigitLike hlike (by omega)).1
  · rw [if_neg hascii, if_neg Bool.false_ne_true, hvalue]
    exact hdigits value (Text.decimalValue?_lt_ten hvalue)

theorem asciiForm_of_not_decimal {c : Char} (h : Text.isDigitLike c = true)
    (hnot : ¬(Text.decimalValue? c).isSome = true) : asciiForm c = '?' := by
  have hascii : ¬c.toNat < 127 :=
    fun hlt => hnot (Text.isDigit_of_isDigitLike h (by omega)).2
  rw [Option.not_isSome_iff_eq_none] at hnot
  rw [asciiForm, if_neg hascii, Text.isBlank_eq_false_of_isDigitLike h,
    if_neg Bool.false_ne_true, hnot]

theorem asciiText_of_digits {cs : List Char}
    (h : ∀ c ∈ cs, Text.isDigitLike c = true) :
    asciiText cs = cs.map asciiForm := by
  rw [asciiText]
  split
  next hall =>
      have hform : ∀ c ∈ cs, asciiForm c = c := by
        intro c hc
        have hascii : c.toNat < 128 :=
          of_decide_eq_true (List.all_eq_true.1 hall c hc)
        have hrange := isDigit_iff.1
          (Text.isDigit_of_isDigitLike (h c hc) hascii).1
        exact if_pos (by omega)
      rw [List.map_congr_left hform, List.map_id']
  next => rfl

section Reading

variable {cs : List Char}

/-- Digits and question marks begin with neither a blank nor a sign. -/
theorem splitSign_dropWhile (h : ∀ c ∈ cs, c.isDigit = true ∨ c = '?') :
    splitSign (cs.dropWhile Text.isAsciiBlank) = (false, cs) := by
  cases cs with
  | nil => rfl
  | cons c rest =>
      have hc : Text.isAsciiBlank c = false ∧ c ≠ '-' ∧ c ≠ '+' := by
        rcases h c List.mem_cons_self with hdigit | rfl
        · have hrange := isDigit_iff.1 hdigit
          refine ⟨?_, ?_, ?_⟩
          · simp only [Text.isAsciiBlank, Bool.or_eq_false_iff,
              Bool.and_eq_false_iff, decide_eq_false_iff_not,
              beq_eq_false_iff_ne]
            omega
          · rintro rfl
            exact absurd hrange (by decide)
          · rintro rfl
            exact absurd hrange (by decide)
        · decide
      rw [List.dropWhile_cons_of_neg (Bool.eq_false_iff.1 hc.1), splitSign]
      · rintro rest' heq
        exact hc.2.1 (List.cons.inj heq).1
      · rintro rest' heq
        exact hc.2.2 (List.cons.inj heq).1

theorem continuesDigits_of_digits (h : ∀ c ∈ cs, c.isDigit = true) :
    continuesDigits cs = true := by
  induction cs with
  | nil => rfl
  | cons c rest ih =>
      have hc := h c List.mem_cons_self
      rw [continuesDigits, hc, Bool.true_and]
      · exact ih fun d hd => h d (List.mem_cons_of_mem c hd)
      · rintro d rest' rfl
        exact absurd hc (by decide)

theorem readAsciiInteger_of_digits (hne : cs ≠ [])
    (h : ∀ c ∈ cs, c.isDigit = true) :
    readAsciiInteger cs =
      if digitLimit < cs.length then .error (.tooManyDigits cs.length)
      else .ok (Nat.ofDigitChars 10 cs 0 : Nat) := by
  have hin : ∀ c ∈ cs, (c.isDigit || c == '_') = true := by
    intro c hc
    rw [h c hc, Bool.true_or]
  have hrun : isDigitRun cs = true := by
    cases cs with
    | nil => exact absurd rfl hne
    | cons c rest =>
        rw [isDigitRun, h c List.mem_cons_self, Bool.true_and]
        exact continuesDigits_of_digits fun d hd =>
          h d (List.mem_cons_of_mem c hd)
  unfold readAsciiInteger
  rw [splitSign_dropWhile fun c hc => .inl (h c hc)]
  simp only [List.takeWhile_eq_self_iff.2 hin, List.dropWhile_eq_nil_iff.2 hin,
    List.filter_eq_self.2 h, hrun]
  rfl

theorem readAsciiInteger_of_mark (h : ∀ c ∈ cs, c.isDigit = true ∨ c = '?')
    (hmark : '?' ∈ cs) : ∃ fault, readAsciiInteger cs = .error fault := by
  -- The mark ends the digits, and it is not one of the blanks that may follow
  -- them.
  have hrest : '?' ∈ cs.dropWhile fun c => c.isDigit || c == '_' := by
    have hsplit : cs.takeWhile (fun c => c.isDigit || c == '_') ++
        cs.dropWhile (fun c => c.isDigit || c == '_') = cs :=
      List.takeWhile_append_dropWhile
    rw [← hsplit, List.mem_append] at hmark
    rcases hmark with hrun | hrest
    · exact absurd (List.mem_takeWhile_imp hrun) (by decide)
    · exact hrest
  have hnot : (cs.dropWhile fun c => c.isDigit || c == '_').all
      Text.isAsciiBlank = false :=
    List.all_eq_false.2 ⟨'?', hrest, by decide⟩
  unfold readAsciiInteger
  rw [splitSign_dropWhile h]
  simp only [hnot, Bool.not_false, if_true]
  split
  next => exact ⟨_, rfl⟩
  next => split <;> exact ⟨_, rfl⟩

end Reading

section Digits

variable {s : String}

theorem readInteger_of_digits {cs : List Char} (hne : cs ≠ [])
    (h : ∀ c ∈ cs, c.isDigit = true) :
    readInteger (String.ofList cs) =
      if digitLimit < cs.length then .error (.tooManyDigits cs.length)
      else .ok (Nat.ofDigitChars 10 cs 0 : Nat) := by
  have hascii : cs.all (·.toNat < 128) = true := by
    refine List.all_eq_true.2 fun c hc => decide_eq_true ?_
    have hrange := isDigit_iff.1 (h c hc)
    omega
  rw [readInteger, String.toList_ofList, asciiText, if_pos hascii,
    readAsciiInteger_of_digits hne h]

theorem readInteger_of_decimal (hne : s ≠ "")
    (h : ∀ c ∈ s.toList, (Text.decimalValue? c).isSome = true) :
    readInteger s =
      if digitLimit < s.length then .error (.tooManyDigits s.length)
      else .ok (Nat.ofDigitChars 10 (s.toList.map asciiForm) 0 : Nat) := by
  have hforms : s.toList.map asciiForm ≠ [] := by
    rw [Ne, List.map_eq_nil_iff, String.toList_eq_nil_iff]
    exact hne
  have hdigits : ∀ c ∈ s.toList.map asciiForm, c.isDigit = true :=
    List.forall_mem_map.2 fun c hc => asciiForm_of_decimal (h c hc)
  have hlike : ∀ c ∈ s.toList, Text.isDigitLike c = true :=
    fun c hc => Text.isDigitLike_of_decimal (h c hc)
  rw [readInteger, asciiText_of_digits hlike,
    readAsciiInteger_of_digits hforms hdigits, List.length_map,
    String.length_toList]

theorem readInteger_of_isNumeral (h : IsNumeral s) :
    readInteger s = .ok (Nat.ofDigitChars 10 (s.toList.map asciiForm)
      0 : Nat) := by
  rw [readInteger_of_decimal h.ne_empty h.decimal,
    if_neg (Nat.not_lt.2 h.short)]

theorem readInteger_of_not_isNumeral (hne : s ≠ "")
    (hdigits : ∀ c ∈ s.toList, Text.isDigitLike c = true) (h : ¬IsNumeral s) :
    ∃ fault, readInteger s = .error fault := by
  -- The digits are decimal and too many, or one of them becomes a question
  -- mark.
  by_cases hdecimal : ∀ c ∈ s.toList, (Text.decimalValue? c).isSome = true
  · have hlong : digitLimit < s.length :=
      Nat.lt_of_not_le fun hshort => h ⟨hne, hdecimal, hshort⟩
    rw [readInteger_of_decimal hne hdecimal, if_pos hlong]
    exact ⟨_, rfl⟩
  · push Not at hdecimal
    rcases hdecimal with ⟨c, hc, hnot⟩
    rw [readInteger, asciiText_of_digits hdigits]
    apply readAsciiInteger_of_mark
    · intro d hd
      rcases List.mem_map.1 hd with ⟨e, he, rfl⟩
      by_cases heDecimal : (Text.decimalValue? e).isSome = true
      · exact .inl (asciiForm_of_decimal heDecimal)
      · exact .inr (asciiForm_of_not_decimal (hdigits e he) heDecimal)
    · exact List.mem_map.2
        ⟨c, hc, asciiForm_of_not_decimal (hdigits c hc) hnot⟩

end Digits

end Number
end IndexAccess
