import IndexAccess.Proofs.Json.RoundTrip
import IndexAccess.Proofs.Text.Quoted

/-!
# The characters of printed documents

A printed document consists of spaces, visible characters of ASCII and line
feeds.  Outside of its strings there are brackets, separators, the words for
null and the truth values, and numbers with digits; no word for an infinity or
for not-a-number stands there if all numbers are finite.
-/

namespace IndexAccess
namespace Json

/-- What stands outside of the strings of a text; `inside` when the text starts
inside of one. -/
def outsideStrings : (inside : Bool) → List Char → List Char
  | _, [] => []
  | false, '"' :: rest => outsideStrings true rest
  | false, c :: rest => c :: outsideStrings false rest
  | true, '"' :: rest => outsideStrings false rest
  | true, '\\' :: _ :: rest => outsideStrings true rest
  | true, _ :: rest => outsideStrings true rest

/-- Neither word of a number that is not finite stands outside of strings. -/
def NamesNoConstant (cs : List Char) : Prop :=
  ¬ ['N', 'a', 'N'] <:+: outsideStrings false cs ∧
    ¬ ['I', 'n', 'f', 'i', 'n', 'i', 't', 'y'] <:+: outsideStrings false cs

/-- Whether a character may stand in a printed document. -/
def isPlainChar (c : Char) : Bool :=
  c == '\n' || (0x20 ≤ c.toNat && c.toNat < 0x7f)

theorem isPlainChar_of_range {c : Char} (h : 0x20 ≤ c.toNat ∧ c.toNat < 0x7f) :
    isPlainChar c = true := by
  simp [isPlainChar, h]

/-- A part of a printed document, which leaves open no string, and which holds
no letter with which a constant starts outside of its strings. -/
structure IsPlain (cs : List Char) : Prop where
  chars : ∀ c ∈ cs, isPlainChar c = true
  outside : ∃ kept, (∀ c ∈ kept, c ≠ 'N' ∧ c ≠ 'I') ∧
    ∀ rest, outsideStrings false (cs ++ rest) =
      kept ++ outsideStrings false rest

theorem IsPlain.ascii {cs : List Char} (h : IsPlain cs) :
    ∀ c ∈ cs, c.toNat < 128 := by
  intro c hc
  have hplain := h.chars c hc
  simp only [isPlainChar, Bool.or_eq_true, beq_iff_eq, Bool.and_eq_true,
    decide_eq_true_eq] at hplain
  rcases hplain with rfl | ⟨-, hmax⟩
  · decide
  · exact hmax.trans (by decide)

/-- Control characters other than the line feed are escaped. -/
theorem IsPlain.not_mem {cs : List Char} (h : IsPlain cs) {c : Char}
    (hc : isPlainChar c = false) : c ∉ cs := by
  intro hmem
  rw [h.chars c hmem] at hc
  cases hc

theorem IsPlain.namesNoConstant {cs : List Char} (h : IsPlain cs) :
    NamesNoConstant cs := by
  obtain ⟨kept, hkept, houtside⟩ := h.outside
  have hall : outsideStrings false cs = kept := by
    have hnil := houtside []
    simpa [outsideStrings] using hnil
  rw [NamesNoConstant, hall]
  refine ⟨fun hword => ?_, fun hword => ?_⟩
  · exact (hkept 'N' (hword.subset (by simp))).1 rfl
  · exact (hkept 'I' (hword.subset (by simp))).2 rfl

/-! ## Plain characters and separators -/

section Parts

variable {cs ds : List Char}

theorem isPlain_nil : IsPlain [] :=
  ⟨by simp, [], by simp, by simp⟩

theorem IsPlain.append (hcs : IsPlain cs) (hds : IsPlain ds) :
    IsPlain (cs ++ ds) := by
  obtain ⟨first, hfirst, hcs_outside⟩ := hcs.outside
  obtain ⟨second, hsecond, hds_outside⟩ := hds.outside
  refine ⟨?_, first ++ second, ?_, ?_⟩
  · intro c hc
    rcases List.mem_append.1 hc with hc | hc
    · exact hcs.chars c hc
    · exact hds.chars c hc
  · intro c hc
    rcases List.mem_append.1 hc with hc | hc
    · exact hfirst c hc
    · exact hsecond c hc
  · intro rest
    rw [List.append_assoc, hcs_outside, hds_outside, List.append_assoc]

/-- Whether a character may stand outside of strings. -/
def isOutside (c : Char) : Bool :=
  isPlainChar c && c != '"' && c != 'N' && c != 'I'

theorem isPlain_of_isOutside (h : ∀ c ∈ cs, isOutside c = true) :
    IsPlain cs := by
  simp only [isOutside, Bool.and_eq_true, bne_iff_ne, ne_eq] at h
  refine ⟨fun c hc => (h c hc).1.1.1, cs,
    fun c hc => ⟨(h c hc).1.2, (h c hc).2⟩, ?_⟩
  intro rest
  induction cs with
  | nil => rfl
  | cons c cs ih =>
      have hquote : ¬c = '"' := (h c (by simp)).1.1.2
      have hrest := ih fun d hd => h d (List.mem_cons_of_mem c hd)
      simp [outsideStrings, hrest]

theorem isPlain_of_all (h : cs.all isOutside = true) : IsPlain cs :=
  isPlain_of_isOutside (List.all_eq_true.1 h)

theorem isPlain_digits (h : ∀ c ∈ cs, c.isDigit = true) : IsPlain cs := by
  apply isPlain_of_isOutside
  intro c hmem
  have hc := h c hmem
  have hrange := Number.isDigit_iff.1 hc
  have hplain : isPlainChar c = true := isPlainChar_of_range (by omega)
  have hothers : c ≠ '"' ∧ c ≠ 'N' ∧ c ≠ 'I' := by
    refine ⟨?_, ?_, ?_⟩ <;> rintro rfl <;> simp at hc
  simp only [isOutside, Bool.and_eq_true, bne_iff_ne]
  exact ⟨⟨⟨hplain, hothers.1⟩, hothers.2.1⟩, hothers.2.2⟩

theorem isPlain_line (n : Nat) : IsPlain ('\n' :: List.replicate n ' ') := by
  apply isPlain_of_isOutside
  intro c hc
  rcases List.mem_cons.1 hc with rfl | hc
  · rfl
  · rw [List.eq_of_mem_replicate hc]
    rfl

/-- Separators consist of commas, line feeds and spaces. -/
structure Separators.ArePlain (s : Separators) : Prop where
  opening : IsPlain s.opening
  between : IsPlain s.between
  closing : IsPlain s.closing

theorem Separators.arePlain_at (indent : Option Nat) (level : Nat) :
    (Separators.at indent level).ArePlain := by
  cases indent with
  | none => exact ⟨isPlain_nil, isPlain_of_all rfl, isPlain_nil⟩
  | some width =>
      have hcomma : IsPlain [','] := isPlain_of_all rfl
      exact ⟨isPlain_line _, hcomma.append (isPlain_line _), isPlain_line _⟩

theorem isPlain_intercalate {sep : List Char} (hsep : IsPlain sep)
    {parts : List (List Char)} (h : ∀ part ∈ parts, IsPlain part) :
    IsPlain (sep.intercalate parts) := by
  induction parts with
  | nil => exact isPlain_nil
  | cons part rest ih =>
      have hpart := h part (by simp)
      have hrest := ih fun other hother =>
        h other (List.mem_cons_of_mem part hother)
      cases rest with
      | nil =>
          rw [List.intercalate_singleton]
          exact hpart
      | cons next rest =>
          rw [List.intercalate_cons_cons]
          exact (hpart.append hsep).append hrest

theorem isPlain_bracketed {opening closing : Char}
    (hopening : isOutside opening = true) (hclosing : isOutside closing = true)
    (indent : Option Nat) (level : Nat) {members : List (List Char)}
    (h : ∀ member ∈ members, IsPlain member) :
    IsPlain (bracketed opening closing indent level members) := by
  by_cases hne : members = []
  · subst hne
    show IsPlain [opening, closing]
    exact isPlain_of_all (by simp [hopening, hclosing])
  · have hs := Separators.arePlain_at indent level
    have hopen : IsPlain [opening] := isPlain_of_all (by simp [hopening])
    have hclose : IsPlain [closing] := isPlain_of_all (by simp [hclosing])
    have hfirst : IsPlain (opening :: (Separators.at indent level).opening) :=
      hopen.append hs.opening
    have hlast : IsPlain ((Separators.at indent level).closing ++ [closing]) :=
      hs.closing.append hclose
    rw [bracketed_of_ne_nil hne, ← List.cons_append]
    exact hfirst.append ((isPlain_intercalate hs.between h).append hlast)

end Parts

/-! ## Printed strings -/

section Strings

/-- A digit of a hexadecimal number ends no string and escapes nothing. -/
theorem mem_hexDigits {width n : Nat} {c : Char}
    (hc : c ∈ Text.hexDigits width n) :
    isPlainChar c = true ∧ c ≠ '"' ∧ c ≠ '\\' := by
  have hdigits : ∀ d < 16, isPlainChar d.digitChar = true ∧
      d.digitChar ≠ '"' ∧ d.digitChar ≠ '\\' := by
    decide
  rcases Text.exists_of_mem_hexDigits hc with ⟨d, hd, rfl⟩
  exact hdigits d hd

/-- A printed part of a string that does not end it. -/
structure StaysInside (cs : List Char) : Prop where
  chars : ∀ c ∈ cs, isPlainChar c = true
  inside : ∀ rest, outsideStrings true (cs ++ rest) = outsideStrings true rest

theorem StaysInside.append {cs ds : List Char} (hcs : StaysInside cs)
    (hds : StaysInside ds) :
    StaysInside (cs ++ ds) := by
  constructor
  · intro c hc
    rcases List.mem_append.1 hc with hc | hc
    · exact hcs.chars c hc
    · exact hds.chars c hc
  · intro rest
    rw [List.append_assoc, hcs.inside, hds.inside]

theorem staysInside_of_forall {cs : List Char}
    (h : ∀ c ∈ cs, isPlainChar c = true ∧ c ≠ '"' ∧ c ≠ '\\') :
    StaysInside cs := by
  refine ⟨fun c hc => (h c hc).1, ?_⟩
  intro rest
  induction cs with
  | nil => rfl
  | cons c cs ih =>
      obtain ⟨-, hquote, hescape⟩ := h c (by simp)
      have hrest := ih fun d hd => h d (List.mem_cons_of_mem c hd)
      simp [outsideStrings, hescape, hrest]

theorem staysInside_escape {c : Char} (hc : isPlainChar c = true) :
    StaysInside ['\\', c] := by
  refine ⟨?_, fun rest => ?_⟩
  · intro d hd
    rcases List.mem_cons.1 hd with rfl | hd
    · decide
    · obtain rfl := List.mem_singleton.1 hd
      exact hc
  · simp [outsideStrings]

theorem staysInside_codeEscape (code : Nat) :
    StaysInside (codeEscape code) := by
  have hletter : StaysInside ['\\', 'u'] := staysInside_escape (by decide)
  have hdigits : StaysInside (Text.hexDigits 4 code) :=
    staysInside_of_forall fun c hc => mem_hexDigits hc
  exact hletter.append hdigits

theorem staysInside_printedPoint (p : CodePoint) :
    StaysInside (printedPoint p) := by
  cases p with
  | surrogate s => exact staysInside_codeEscape s.code
  | char c =>
      show StaysInside (printedChar c)
      unfold printedChar
      split
      next => exact staysInside_escape (by decide)
      next => exact staysInside_escape (by decide)
      next => exact staysInside_escape (by decide)
      next => exact staysInside_escape (by decide)
      next => exact staysInside_escape (by decide)
      next => exact staysInside_escape (by decide)
      next => exact staysInside_escape (by decide)
      next hquote hescape _ _ _ _ _ =>
        split
        next hrange =>
          apply staysInside_of_forall
          intro d hd
          obtain rfl := List.mem_singleton.1 hd
          exact ⟨isPlainChar_of_range hrange, hquote, hescape⟩
        next =>
          split
          next => exact staysInside_codeEscape _
          next =>
            exact (staysInside_codeEscape _).append (staysInside_codeEscape _)

theorem isPlain_printedText (t : Text) : IsPlain (printedText t) := by
  have hpoints : StaysInside (t.points.flatMap printedPoint) := by
    induction t.points with
    | nil => exact ⟨by simp, by simp⟩
    | cons p points ih =>
        rw [List.flatMap_cons]
        exact (staysInside_printedPoint p).append ih
  refine ⟨?_, [], by simp, ?_⟩
  · intro c hc
    simp only [printedText, List.cons_append, List.mem_cons, List.mem_append,
      List.not_mem_nil, or_false] at hc
    rcases hc with rfl | hc | rfl
    · decide
    · exact hpoints.chars c hc
    · decide
  · intro rest
    rw [printedText, List.cons_append, List.cons_append, List.append_assoc,
      outsideStrings, hpoints.inside]
    simp [outsideStrings]

end Strings

/-! ## Printed numbers -/

section Numbers

open Binary64

variable {digits : List Char}

theorem isPlain_zeros (n : Nat) : IsPlain (List.replicate n '0') :=
  isPlain_digits fun _ hc => isDigit_of_mem_replicate hc

theorem isPlain_minus (negative : Bool) : IsPlain (minus negative) := by
  cases negative with
  | true => exact isPlain_of_all rfl
  | false => exact isPlain_nil

theorem isPlain_toDigits (n : Nat) : IsPlain (Nat.toDigits 10 n) :=
  isPlain_digits (isWhole_toDigits n).digit

theorem isPlain_integerText (i : Int) :
    IsPlain (Number.integerText i).toList := by
  rw [toList_integerText]
  exact (isPlain_minus _).append (isPlain_toDigits _)

theorem isPlain_positional (h : ∀ c ∈ digits, c.isDigit = true)
    (exponent : Int) :
    IsPlain (positional digits exponent) := by
  have hpoint : IsPlain ['.'] := isPlain_of_all rfl
  have hzero : IsPlain ['0', '.'] := isPlain_of_all rfl
  have htake : ∀ n, IsPlain (digits.take n) :=
    fun n => isPlain_digits fun c hc => h c (List.mem_of_mem_take hc)
  have hdrop : ∀ n, IsPlain (digits.drop n) :=
    fun n => isPlain_digits fun c hc => h c (List.mem_of_mem_drop hc)
  have hfraction : ∀ n, IsPlain (if (digits.drop n).isEmpty then ['0']
      else digits.drop n) := by
    intro n
    split
    next => exact isPlain_of_all rfl
    next => exact hdrop n
  unfold positional
  split
  next => exact (hzero.append (isPlain_zeros _)).append (isPlain_digits h)
  next =>
    exact ((htake _).append (isPlain_zeros _)).append
      (hpoint.append (hfraction _))

theorem isPlain_scientific (layout : Layout)
    (h : ∀ c ∈ digits, c.isDigit = true) (exponent : Int) :
    IsPlain (scientific layout digits exponent) := by
  have htake : IsPlain (digits.take 1) :=
    isPlain_digits fun c hc => h c (List.mem_of_mem_take hc)
  have hdrop : IsPlain (digits.drop 1) :=
    isPlain_digits fun c hc => h c (List.mem_of_mem_drop hc)
  have hpoint : IsPlain ['.'] := isPlain_of_all rfl
  have hexponent : IsPlain ['e', if exponent < 0 then '-' else '+'] := by
    apply isPlain_of_all
    split <;> rfl
  have hfraction : IsPlain (if (digits.drop 1).isEmpty then []
      else '.' :: digits.drop 1) := by
    split
    next => exact isPlain_nil
    next => exact hpoint.append hdrop
  exact ((htake.append hfraction).append
    (hexponent.append (isPlain_zeros _))).append
    (isPlain_toDigits _)

theorem isPlain_finiteText (layout : Layout) (x : FiniteBinary64) :
    IsPlain (finiteText layout x) := by
  have hdigits : ∀ c ∈ dropTrailingZeros (Nat.toDigits 10 (shortest x).digits),
      c.isDigit = true := by
    obtain ⟨n, hn⟩ := dropTrailingZeros_append
      (Nat.toDigits 10 (shortest x).digits)
    intro c hc
    apply (isWhole_toDigits (shortest x).digits).digit c
    rw [hn]
    exact List.mem_append_left _ hc
  unfold finiteText
  apply (isPlain_minus x.negative).append
  split
  next => exact isPlain_of_all rfl
  next =>
    unfold positiveText
    dsimp only
    split
    next => exact isPlain_positional hdigits _
    next => exact isPlain_scientific layout hdigits _

end Numbers

/-! ## Printed values -/

section Values

variable {indent : Option Nat}

theorem isPlain_printedItems {items : List Value} {level : Nat}
    (h : ∀ item ∈ items, IsPlain (printed indent level item)) :
    ∀ part ∈ printedItems indent level items, IsPlain part := by
  induction items with
  | nil => simp [printedItems]
  | cons item rest ih =>
      intro part hpart
      rw [printedItems, List.mem_cons] at hpart
      rcases hpart with rfl | hpart
      · exact h item (by simp)
      · exact ih (fun other hother =>
          h other (List.mem_cons_of_mem item hother)) part hpart

theorem isPlain_printedEntries {fields : List (Text × Value)} {level : Nat}
    (h : ∀ name value, (name, value) ∈ fields →
      IsPlain (printed indent level value)) :
    ∀ part ∈ printedEntries indent level
      (fields.map fun (name, value) => (.text name, value)), IsPlain part := by
  have hcolon : IsPlain [':', ' '] := isPlain_of_all rfl
  induction fields with
  | nil => simp [printedEntries]
  | cons field rest ih =>
      obtain ⟨name, value⟩ := field
      intro part hpart
      rw [List.map_cons, printedEntries, List.mem_cons] at hpart
      rcases hpart with rfl | hpart
      · exact (isPlain_printedText name).append
          (hcolon.append (h name value (by simp)))
      · exact ih (fun n v hmem =>
          h n v (List.mem_cons_of_mem _ hmem)) part hpart

/-- Every printed document is in ASCII and names no infinity and no
not-a-number, if its numbers are finite. -/
theorem isPlain_printed {T : Text → Prop} {v : Value} (hv : IsDocument T v)
    (hfinite : v.hasFiniteNumbers = true) (indent : Option Nat) (level : Nat) :
    IsPlain (printed indent level v) := by
  induction hv generalizing level with
  | null =>
      simp only [printed]
      exact isPlain_of_all rfl
  | boolean b =>
      rw [printed]
      cases b <;> exact isPlain_of_all rfl
  | integer hwritable =>
      rw [printed]
      exact isPlain_integerText _
  | number x =>
      cases x with
      | finite x =>
          rw [printed, Binary64.write, String.toList_ofList]
          exact isPlain_finiteText numberLayout x
      | infinite negative => cases hfinite
      | nan => cases hfinite
  | text ht =>
      rw [printed]
      exact isPlain_printedText _
  | list items_document ih =>
      rw [Value.hasFiniteNumbers, Value.haveFiniteNumbers_iff] at hfinite
      rw [printed]
      refine isPlain_bracketed rfl rfl indent level (isPlain_printedItems ?_)
      exact fun item hitem => ih item hitem (hfinite item hitem) _
  | dict keys_nodup names_paired values_document ih =>
      rw [Value.hasFiniteNumbers_dictValue_iff] at hfinite
      rw [dictValue, printed]
      refine isPlain_bracketed rfl rfl indent level (isPlain_printedEntries ?_)
      exact fun name value hmem => ih name value hmem
        (hfinite name value hmem) _

end Values

end Json
end IndexAccess
