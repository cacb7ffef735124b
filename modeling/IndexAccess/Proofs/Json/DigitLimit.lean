import IndexAccess.Proofs.Json.RoundTrip
import IndexAccess.Proofs.Json.Suffixes

/-!
# Documents with too many digits

A document is not read for one of two reasons: it is malformed, or it holds an
integer with more digits than the limit.  The second is the rarer one, and a
document gives rise to it only where so many digits stand in a row.
-/

namespace IndexAccess
namespace Json

open CodePoint (ofChars)

/-- A document with too many digits has them in a row. -/
theorem holdsDigits_of_readDocument {document : Text} {count : Nat}
    (h : readDocument document = .error (.tooManyDigits count)) :
    HoldsDigits count document.points := by
  unfold readDocument at h
  split at h
  next => cases h
  next =>
    have hvalue := ((readersStayWithin (3 * document.points.length + 3)).value
      (skipBlanks document.points)).mono (skipBlanks_suffix document.points)
    cases hreading : readValue (3 * document.points.length + 3)
      (skipBlanks document.points) with
    | error fault =>
        rw [hreading] at h
        obtain rfl := Except.error.inj h
        exact hvalue.holdsDigits count hreading
    | ok part =>
        rw [hreading] at h
        dsimp only [bind, Except.bind] at h
        split at h
        next => cases h
        next => cases h

theorem readValue_of_isDigit {c : Char} (hc : c.isDigit = true) (fuel : Nat)
    (rest : List CodePoint) :
    readValue (fuel + 1) (.char c :: rest) = readPlain (.char c :: rest) := by
  have hne : c ∉ ['"', '{', '['] := by
    intro hmem
    have hnot : ∀ d ∈ ['"', '{', '['], d.isDigit = false := by simp
    rw [hnot c hmem] at hc
    cases hc
  simp only [List.mem_cons, List.not_mem_nil, or_false, not_or] at hne
  rw [readValue]
  all_goals simp [hne]

/-- A document that is a single integer is refused if its digits exceed the
limit. -/
theorem readDocument_of_digitLimit_lt {digits : List Char}
    (hwhole : IsWhole digits) (hlimit : Number.digitLimit < digits.length) :
    readDocument ⟨ofChars digits⟩ = .error (.tooManyDigits digits.length) := by
  have hplain : readPlain (ofChars digits) =
      .error (.tooManyDigits digits.length) := by
    have hread : readPlain
        (ofChars (minus false) ++ (ofChars digits ++ [])) = _ :=
      (readPlain_eq_readNumber hwhole []).trans
        (readNumber_integer hwhole stopsNumber_nil)
    rw [List.append_nil, integerOfDigits, if_pos hlimit] at hread
    exact hread
  obtain ⟨c, tail, rfl, hdigit⟩ := hwhole.exists_cons
  have hblank : isBlank (.char c) = false := by
    rw [Bool.eq_false_iff]
    intro hblank
    have hnot : c.isDigit = false := (isDigit_eq_false_of_isBlank hblank).1
    rw [hnot] at hdigit
    cases hdigit
  have hskip : skipBlanks (ofChars (c :: tail)) = ofChars (c :: tail) :=
    skipBlanks_of_startsPlain (startsPlain_cons hblank)
  unfold readDocument
  split
  next heq =>
    obtain rfl : c = '\ufeff' := CodePoint.char.inj (List.cons.inj heq).1
    cases hdigit
  next =>
    have hvalue (fuel : Nat) : readValue (fuel + 1) (ofChars (c :: tail)) =
        .error (.tooManyDigits (c :: tail).length) := by
      rw [← hplain]
      exact readValue_of_isDigit hdigit fuel (ofChars tail)
    dsimp only
    rw [hskip, hvalue]
    rfl

end Json
end IndexAccess
