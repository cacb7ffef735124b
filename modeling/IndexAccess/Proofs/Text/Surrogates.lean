import IndexAccess.Text.Basic
import Mathlib

/-!
# Texts and their numbers

A sequence of numbers becomes a text in which no high surrogate stands directly
before a low one, unless one of them was written as itself.  Conversely such a
text is recovered from the numbers of its code points, each taken apart into
surrogates where it lies beyond the basic plane.
-/

namespace IndexAccess

theorem CodePoint.code_char_not_surrogate (c : Char) :
    ¬(0xd800 ≤ (CodePoint.char c).code ∧
      (CodePoint.char c).code < 0xe000) := by
  intro h
  have hvalid : c.toNat < 0xd800 ∨ (0xdfff < c.toNat ∧ c.toNat < 0x110000) :=
    c.valid
  simp only [CodePoint.code] at h
  omega

theorem CodePoint.code_lt (p : CodePoint) : p.code < 0x110000 := by
  cases p with
  | char c =>
      have hvalid : c.toNat < 0xd800 ∨
          (0xdfff < c.toNat ∧ c.toNat < 0x110000) := c.valid
      simp only [code]
      omega
  | surrogate s =>
      have hrange := s.inRange
      simp only [code]
      omega

theorem CodePoint.surrogate_ofCode (code : Nat) :
    (ofCode code).code = code ∨
      (¬(0xd800 ≤ (ofCode code).code ∧ (ofCode code).code < 0xe000) ∧
        ¬(0xd800 ≤ code ∧ code < 0xe000)) := by
  unfold ofCode
  split
  next => exact .inl rfl
  next hrange => exact .inr ⟨code_char_not_surrogate _, hrange⟩

theorem CodePoint.ofCode_code (p : CodePoint) : ofCode p.code = p := by
  cases p with
  | char c => exact ofCode_toNat c
  | surrogate s =>
      have hrange := s.inRange
      simp [ofCode, code, hrange]

namespace Text

/-- Two code points that would be read as one. -/
def Joins (first second : CodePoint) : Prop :=
  isHighSurrogate first.code = true ∧ isLowSurrogate second.code = true

/-- No high surrogate stands directly before a low one. -/
def Paired (t : Text) : Prop :=
  t.points.IsChain fun first second => ¬Joins first second

theorem isHighSurrogate_iff {code : Nat} :
    isHighSurrogate code = true ↔ 0xd800 ≤ code ∧ code < 0xdc00 := by
  simp [isHighSurrogate]

theorem isLowSurrogate_iff {code : Nat} :
    isLowSurrogate code = true ↔ 0xdc00 ≤ code ∧ code < 0xe000 := by
  simp [isLowSurrogate]

theorem isHighSurrogate_ofCode (code : Nat) :
    isHighSurrogate (CodePoint.ofCode code).code = true ↔
      isHighSurrogate code = true := by
  rw [isHighSurrogate_iff, isHighSurrogate_iff]
  rcases CodePoint.surrogate_ofCode code with heq | hout
  · rw [heq]
  · omega

theorem isLowSurrogate_ofCode (code : Nat) :
    isLowSurrogate (CodePoint.ofCode code).code = true ↔
      isLowSurrogate code = true := by
  rw [isLowSurrogate_iff, isLowSurrogate_iff]
  rcases CodePoint.surrogate_ofCode code with heq | hout
  · rw [heq]
  · omega

theorem le_joinSurrogates (high low : Nat) :
    0x10000 ≤ joinSurrogates high low :=
  (Nat.le_add_right _ _).trans (Nat.le_add_right _ _)

theorem joinSurrogates_not_low (high low : Nat) :
    ¬isLowSurrogate (joinSurrogates high low) = true := by
  have hmin := le_joinSurrogates high low
  rw [isLowSurrogate_iff]
  omega

theorem joinSurrogates_not_high (high low : Nat) :
    ¬isHighSurrogate (joinSurrogates high low) = true := by
  have hmin := le_joinSurrogates high low
  rw [isHighSurrogate_iff]
  omega

theorem isLowSurrogate_head_pointsOf {first : Nat} {rest : List Written}
    {p : CodePoint} (hp : p ∈ (pointsOf (.code first :: rest)).head?)
    (hlow : isLowSurrogate p.code = true) : isLowSurrogate first = true := by
  have hfirst : CodePoint.ofCode first = p → isLowSurrogate first = true := by
    rintro rfl
    rwa [isLowSurrogate_ofCode] at hlow
  cases rest with
  | nil => exact hfirst (by simpa [pointsOf] using hp)
  | cons second rest =>
      cases second with
      | alone s => exact hfirst (by simpa [pointsOf] using hp)
      | code second =>
          rw [pointsOf] at hp
          split at hp
          next =>
            obtain rfl : CodePoint.ofCode
                (joinSurrogates first second) = p := by
              simpa using hp
            rw [isLowSurrogate_ofCode] at hlow
            exact absurd hlow (joinSurrogates_not_low first second)
          next => exact hfirst (by simpa using hp)

/-- Only a surrogate that is written as itself can stand directly before a low
one. -/
theorem paired_ofWritten {written : List Written}
    (h : ∀ s, .alone s ∉ written) :
    (ofWritten written).Paired := by
  show (pointsOf written).IsChain _
  fun_induction pointsOf written with
  | case1 => exact .nil
  | case2 s rest ih => exact absurd List.mem_cons_self (h s)
  | case3 => exact .singleton _
  | case4 first s rest ih => exact absurd (by simp) (h s)
  | case5 first second rest hjoin ih =>
      refine List.isChain_cons.2 ⟨?_, ih fun s hs => h s (by simp [hs])⟩
      rintro q hq ⟨hhigh, -⟩
      rw [isHighSurrogate_ofCode] at hhigh
      exact joinSurrogates_not_high first second hhigh
  | case6 first second rest hjoin ih =>
      refine List.isChain_cons.2
        ⟨?_, ih fun s hs => h s (List.mem_cons_of_mem _ hs)⟩
      rintro q hq ⟨hhigh, hlow⟩
      rw [isHighSurrogate_ofCode] at hhigh
      have hsecond := isLowSurrogate_head_pointsOf hq hlow
      simp [hhigh, hsecond] at hjoin

/-- The numbers of a code point, in which a point beyond the basic plane is a
pair of surrogates. -/
def writtenOf (p : CodePoint) : List Written :=
  if 0x10000 ≤ p.code then
    [.code (splitSurrogates p.code).1, .code (splitSurrogates p.code).2]
  else [.code p.code]

theorem splitSurrogates_high {code : Nat} (hmin : 0x10000 ≤ code)
    (hmax : code < 0x110000) :
    isHighSurrogate (splitSurrogates code).1 = true := by
  have hquotient : (code - 0x10000) / 0x400 < 0x400 := by omega
  rw [isHighSurrogate_iff]
  exact ⟨Nat.le_add_right _ _, Nat.add_lt_add_left hquotient 0xd800⟩

theorem splitSurrogates_low (code : Nat) :
    isLowSurrogate (splitSurrogates code).2 = true := by
  have hremainder : (code - 0x10000) % 0x400 < 0x400 :=
    Nat.mod_lt _ (by decide)
  rw [isLowSurrogate_iff]
  exact ⟨Nat.le_add_right _ _, Nat.add_lt_add_left hremainder 0xdc00⟩

theorem isLowSurrogate_head_writtenOf {p : CodePoint} {number : Nat}
    (hnumber : .code number ∈ (writtenOf p).head?)
    (hlow : isLowSurrogate number = true) :
    isLowSurrogate p.code = true := by
  unfold writtenOf at hnumber
  split at hnumber
  next hmin =>
    obtain rfl : (splitSurrogates p.code).1 = number := by simpa using hnumber
    have hhigh := splitSurrogates_high hmin p.code_lt
    rw [isHighSurrogate_iff] at hhigh
    rw [isLowSurrogate_iff] at hlow
    omega
  next =>
    obtain rfl : p.code = number := by simpa using hnumber
    exact hlow

/-- A number that is not joined with the one after it is a code point of its
own. -/
theorem pointsOf_cons {first : Nat} {rest : List Written}
    (h : ∀ second, .code second ∈ rest.head? →
      ¬(isHighSurrogate first = true ∧ isLowSurrogate second = true)) :
    pointsOf (.code first :: rest) = .ofCode first :: pointsOf rest := by
  cases rest with
  | nil => rfl
  | cons second rest =>
      cases second with
      | alone s => rfl
      | code second =>
          have hsecond : ¬(isHighSurrogate first && isLowSurrogate second) =
              true := by
            simpa using h second (by simp)
          rw [pointsOf, if_neg hsecond]

theorem pointsOf_writtenOf_append {p : CodePoint} {rest : List Written}
    (h : ∀ number, .code number ∈ rest.head? →
      ¬(isHighSurrogate p.code = true ∧ isLowSurrogate number = true)) :
    pointsOf (writtenOf p ++ rest) = p :: pointsOf rest := by
  unfold writtenOf
  split
  next hmin =>
    have hhigh := splitSurrogates_high hmin p.code_lt
    have hlow := splitSurrogates_low p.code
    rw [List.cons_append, List.cons_append, List.nil_append, pointsOf, hhigh,
      hlow, joinSurrogates_splitSurrogates hmin, CodePoint.ofCode_code]
    rfl
  next =>
    rw [List.singleton_append, pointsOf_cons h, CodePoint.ofCode_code]

/-- Code points are read back from their numbers if no two of them would be
joined. -/
theorem pointsOf_flatMap {points : List CodePoint}
    (h : points.IsChain fun first second => ¬Joins first second) :
    pointsOf (points.flatMap writtenOf) = points := by
  induction points with
  | nil => rfl
  | cons p rest ih =>
      obtain ⟨hhead, htail⟩ := List.isChain_cons.1 h
      rw [List.flatMap_cons, pointsOf_writtenOf_append, ih htail]
      rintro number hnumber ⟨hhigh, hlow⟩
      cases rest with
      | nil => simp at hnumber
      | cons q rest =>
          have hfirst : .code number ∈ (writtenOf q).head? := by
            by_cases hmin : 0x10000 ≤
              q.code <;> simpa [writtenOf, hmin] using hnumber
          exact hhead q (by simp)
            ⟨hhigh, isLowSurrogate_head_writtenOf hfirst hlow⟩

end Text
end IndexAccess
