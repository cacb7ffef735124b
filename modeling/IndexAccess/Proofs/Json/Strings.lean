import IndexAccess.Json.Printer
import IndexAccess.Json.Reader
import IndexAccess.Proofs.Text.Surrogates

/-!
# Printed strings are read back

Every code point of a text is printed as one character, one letter escape or
one or two code escapes, and each of these is read as the numbers of the code
point.  The numbers of a whole text give back its code points if no two of them
would be joined.
-/

namespace IndexAccess

namespace Text

theorem readHex?_concat (cs : List Char) (c : Char) :
    readHex? (cs ++ [c]) =
      (readHex? cs).bind fun value => (hexValue? c).map (value * 16 + ·) := by
  unfold readHex?
  rw [List.foldl_append]
  generalize cs.foldl _ _ = before
  cases before <;> cases h : hexValue? c <;> simp [h]

theorem hexValue?_digitChar : ∀ d < 16, hexValue? d.digitChar = some d := by
  decide

/-- A number with few enough digits is read back from all of them. -/
theorem readHex?_hexDigits (width : Nat) {n : Nat} (hn : n < 16 ^ width) :
    readHex? (hexDigits width n) = some n := by
  induction width generalizing n with
  | zero =>
      obtain rfl : n = 0 := by simpa using hn
      rfl
  | succ width ih =>
      have hquotient : n / 16 < 16 ^ width := by
        rw [Nat.pow_succ] at hn
        exact Nat.div_lt_of_lt_mul (by omega)
      rw [hexDigits, readHex?_concat, ih hquotient,
        hexValue?_digitChar _ (Nat.mod_lt n (by decide))]
      simp only [Option.map_some, Option.bind_some]
      rw [Nat.div_add_mod' n 16]

end Text

namespace Json

open CodePoint (ofChars)

variable {start rest after : List CodePoint} {written : List Text.Written}

theorem ne_nil_of_readWritten
    (h : readWritten start rest = .ok (written, after)) :
    rest ≠ [] := by
  rintro rfl
  simp [readWritten] at h

theorem codeOf?_ofChars (cs : List Char) :
    codeOf? (ofChars cs) = Text.readHex? cs := by
  have hchars : (ofChars cs).mapM CodePoint.char? = some cs := by
    induction cs with
    | nil => rfl
    | cons c cs ih =>
        rw [CodePoint.ofChars_cons, List.mapM_cons, ih]
        rfl
  rw [codeOf?, hchars]
  rfl

theorem readWritten_codeEscape {code : Nat} (hcode : code < 0x10000)
    (h : readWritten start rest = .ok (written, after)) :
    readWritten start (ofChars (codeEscape code) ++ rest) =
      .ok (.code code :: written, after) := by
  obtain ⟨next, rest, rfl⟩ :=
    List.exists_cons_of_ne_nil (ne_nil_of_readWritten h)
  obtain ⟨a, b, c, d, hdigits⟩ : ∃ a b c d, Text.hexDigits 4 code =
      [a, b, c, d] :=
    ⟨_, _, _, _, rfl⟩
  have hread : codeOf? [.char a, .char b, .char c, .char d] = some code := by
    rw [← Text.readHex?_hexDigits 4 hcode, hdigits]
    exact codeOf?_ofChars [a, b, c, d]
  rw [codeEscape, hdigits]
  simp [readWritten, hread, h, Reading.cons, Except.map]

theorem readWritten_letterEscape {letter c : Char}
    (hletter : letterEscape? (.char letter) = some c)
    (h : readWritten start rest = .ok (written, after)) :
    readWritten start (.char '\\' :: .char letter :: rest) =
      .ok (.code c.toNat :: written, after) := by
  have hne : letter ≠ 'u' := by
    rintro rfl
    simp [letterEscape?] at hletter
  simp [readWritten, hne, hletter, h, Reading.cons, Except.map]

theorem readWritten_plain {c : Char} (hquote : c ≠ '"') (hescape : c ≠ '\\')
    (hmin : 0x20 ≤ c.toNat)
    (h : readWritten start rest = .ok (written, after)) :
    readWritten start (.char c :: rest) =
      .ok (.code c.toNat :: written, after) := by
  have hcontrol : ¬(CodePoint.char c).code < 0x20 := Nat.not_lt.2 hmin
  rw [readWritten, if_neg hcontrol, h]
  · rfl
  all_goals simp [hquote, hescape]

theorem readWritten_printedChar (c : Char)
    (h : readWritten start rest = .ok (written, after)) :
    readWritten start (ofChars (printedChar c) ++ rest) =
      .ok (Text.writtenOf (.char c) ++ written, after) := by
  have hcode : (CodePoint.char c).code = c.toNat := rfl
  unfold printedChar
  split
  next => exact readWritten_letterEscape rfl h
  next => exact readWritten_letterEscape rfl h
  next => exact readWritten_letterEscape rfl h
  next => exact readWritten_letterEscape rfl h
  next => exact readWritten_letterEscape rfl h
  next => exact readWritten_letterEscape rfl h
  next => exact readWritten_letterEscape rfl h
  next hquote hescape _ _ _ _ _ =>
    split
    next hrange =>
      rw [Text.writtenOf, hcode, if_neg (by omega)]
      exact readWritten_plain hquote hescape hrange.1 h
    next =>
      split
      next hbasic =>
        rw [Text.writtenOf, hcode, if_neg (Nat.not_le.2 hbasic)]
        exact readWritten_codeEscape hbasic h
      next hbeyond =>
        have hmax := CodePoint.code_lt (.char c)
        have hhigh := Text.isHighSurrogate_iff.1
          (Text.splitSurrogates_high (Nat.not_lt.1 hbeyond) hmax)
        have hlow := Text.isLowSurrogate_iff.1
          (Text.splitSurrogates_low c.toNat)
        rw [Text.writtenOf, hcode, if_pos (Nat.not_lt.1 hbeyond),
          CodePoint.ofChars_append, List.append_assoc]
        exact readWritten_codeEscape (by omega)
          (readWritten_codeEscape (by omega) h)

theorem readWritten_printedPoint (p : CodePoint)
    (h : readWritten start rest = .ok (written, after)) :
    readWritten start (ofChars (printedPoint p) ++ rest) =
      .ok (Text.writtenOf p ++ written, after) := by
  cases p with
  | char c => exact readWritten_printedChar c h
  | surrogate s =>
      have hrange := s.inRange
      have hcode : (CodePoint.surrogate s).code = s.code := rfl
      rw [Text.writtenOf, hcode, if_neg (by omega)]
      exact readWritten_codeEscape (by omega) h

theorem readWritten_printedPoints (points : List CodePoint) :
    readWritten start (ofChars (points.flatMap printedPoint) ++
      .char '"' :: rest) =
      .ok (points.flatMap Text.writtenOf, rest) := by
  induction points with
  | nil => simp [readWritten]
  | cons p points ih =>
      rw [List.flatMap_cons, List.flatMap_cons, CodePoint.ofChars_append,
        List.append_assoc]
      exact readWritten_printedPoint p ih

/-- A printed text is read back up to its closing quote, whatever stands after
it. -/
theorem readString_printedPoints {t : Text} (ht : t.Paired)
    (start rest : List CodePoint) :
    readString start (ofChars (t.points.flatMap printedPoint) ++
      .char '"' :: rest) =
      .ok (t, rest) := by
  rw [readString, readWritten_printedPoints]
  simp only [Except.map, Text.ofWritten]
  rw [Text.pointsOf_flatMap ht]

end Json
end IndexAccess
