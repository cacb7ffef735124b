import IndexAccess.Text.Utf8
import Mathlib

/-!
# Encoded texts are decoded to themselves

The UTF-8 form of a character is one sequence: a first byte that tells its
length, and bytes that continue it.  Decoding takes such a sequence off the
front and finds the character again, so that a whole encoded text is decoded to
itself.  Line ends are unified afterwards, which a text without carriage
returns does not notice.
-/

namespace IndexAccess
namespace Text

section Bytes

theorem toList_loop_eq (bytes : ByteArray) (i : Nat) (before : List UInt8) :
    ByteArray.toList.loop bytes i before =
      before.reverse ++ bytes.data.toList.drop i := by
  induction i, before using ByteArray.toList.loop.induct bytes with
  | case1 i before hlt ih =>
      have hi : i < bytes.data.toList.length := by simpa using hlt
      have hget : bytes.get! i = bytes.data.toList[i] := by
        rw [ByteArray.get!, Array.getElem_toList]
        exact getElem!_pos bytes.data i hlt
      rw [ByteArray.toList.loop, if_pos hlt, ih, List.drop_eq_getElem_cons hi,
        hget]
      simp
  | case2 i before hge =>
      have hlength : bytes.data.toList.length ≤ i := by simpa using hge
      rw [ByteArray.toList.loop, if_neg hge, List.drop_eq_nil_of_le hlength]
      simp

theorem toList_toUTF8 (s : String) :
    s.toUTF8.toList = s.toList.flatMap String.utf8EncodeChar := by
  have hbytes : s.toUTF8 = s.toList.utf8Encode := by
    rw [← String.toByteArray_ofList, String.ofList_toList]
    rfl
  rw [hbytes, ByteArray.toList, toList_loop_eq, List.utf8Encode,
    List.toList_data_toByteArray]
  rfl

end Bytes

section Sequences

/-- A first byte and the bytes that continue it stand for one code point,
whatever comes after them. -/
structure IsSequence (first : UInt8) (others : List UInt8)
    (code : Nat) : Prop where
  length_eq : sequenceLength? first = some (others.length + 1)
  count_eq : ∀ rest, continuationCount first (others.length + 1)
    (others ++ rest) = others.length
  code_eq : codePoint first others = code

theorem IsSequence.decodeFrom_append {first : UInt8}
    {others : List UInt8} {code : Nat} (h : IsSequence first others code)
    (position fuel : Nat) (rest : List UInt8) :
    decodeFrom position (fuel + 1) (first :: others ++ rest) =
      (decodeFrom (position + (others.length + 1)) fuel rest).map
        (Char.ofNat code :: ·) := by
  rw [List.cons_append, decodeFrom, h.length_eq]
  simp only [h.count_eq, if_true, List.drop_left, List.take_left, h.code_eq]
  rfl

theorem sequenceLength?_eq (byte : UInt8) :
    sequenceLength? byte =
      if byte.toNat < 0x80 then some 1
      else if byte.toNat < 0xc2 then none
      else if byte.toNat < 0xe0 then some 2
      else if byte.toNat < 0xf0 then some 3
      else if byte.toNat < 0xf5 then some 4
      else none := by
  simp [sequenceLength?, UInt8.lt_iff_toNat_lt]

theorem isContinuation_iff (byte : UInt8) :
    isContinuation byte = true ↔ 0x80 ≤ byte.toNat ∧ byte.toNat < 0xc0 := by
  simp [isContinuation, UInt8.le_iff_toNat_le, UInt8.lt_iff_toNat_lt]

theorem isSecond_iff (first second : UInt8) :
    isSecond first second = true ↔
      isContinuation second = true ∧
      (first.toNat = 0xe0 → 0xa0 ≤ second.toNat) ∧
        (first.toNat = 0xed → second.toNat < 0xa0) ∧
        (first.toNat = 0xf0 → 0x90 ≤ second.toNat) ∧
        (first.toNat = 0xf4 → second.toNat < 0x90) := by
  simp only [isSecond, Bool.and_eq_true, Bool.or_eq_true, bne_iff_ne,
    decide_eq_true_eq, UInt8.le_iff_toNat_le, UInt8.lt_iff_toNat_lt, ne_eq,
    ← UInt8.toNat_inj, Decidable.imp_iff_not_or, and_assoc]
  rfl

theorem isSequence_one {first : UInt8} {n : Nat} (h : n < 0x80)
    (hfirst : first.toNat = n) :
    IsSequence first [] n := by
  refine ⟨?_, ?_, hfirst⟩
  · rw [sequenceLength?_eq, if_pos (by omega)]
    rfl
  · intro rest
    cases rest <;> simp [continuationCount]

theorem isSequence_two {first second : UInt8} {n : Nat} (h : 0x80 ≤ n)
    (h' : n < 0x800) (hfirst : first.toNat = n / 64 % 32 + 192)
    (hsecond : second.toNat = n % 64 + 128) :
    IsSequence first [second] n := by
  refine ⟨?_, ?_, ?_⟩
  · rw [sequenceLength?_eq, if_neg (by omega), if_neg (by omega),
      if_pos (by omega)]
    rfl
  · intro rest
    have hcontinues : isSecond first second = true := by
      rw [isSecond_iff, isContinuation_iff]
      omega
    simp [continuationCount, hcontinues]
  · show first.toNat % 32 * 64 + second.toNat % 64 = n
    omega

/-- Surrogates, which are no characters, have no sequence of three bytes. -/
theorem isSequence_three {first second third : UInt8} {n : Nat} (h : 0x800 ≤ n)
    (h' : n < 0x10000) (hchar : n < 0xd800 ∨ 0xdfff < n)
    (hfirst : first.toNat = n / 4096 % 16 + 224)
    (hsecond : second.toNat = n / 64 % 64 + 128)
    (hthird : third.toNat = n % 64 + 128) :
    IsSequence first [second, third] n := by
  refine ⟨?_, ?_, ?_⟩
  · rw [sequenceLength?_eq, if_neg (by omega), if_neg (by omega),
      if_neg (by omega), if_pos (by omega)]
    rfl
  · intro rest
    have hcontinues : isSecond first second = true := by
      rw [isSecond_iff, isContinuation_iff]
      omega
    have hlast : isContinuation third = true := by
      rw [isContinuation_iff]
      omega
    simp [continuationCount, hcontinues, hlast]
  · show (first.toNat % 16 * 64 + second.toNat % 64) * 64 + third.toNat % 64 =
      n
    omega

theorem isSequence_four {first second third fourth : UInt8} {n : Nat}
    (h : 0x10000 ≤ n) (h' : n < 0x110000)
    (hfirst : first.toNat = n / 262144 % 8 + 240)
    (hsecond : second.toNat = n / 4096 % 64 + 128)
    (hthird : third.toNat = n / 64 % 64 + 128)
    (hfourth : fourth.toNat = n % 64 + 128) :
    IsSequence first [second, third, fourth] n := by
  refine ⟨?_, ?_, ?_⟩
  · rw [sequenceLength?_eq, if_neg (by omega), if_neg (by omega),
      if_neg (by omega), if_neg (by omega), if_pos (by omega)]
    rfl
  · intro rest
    have hcontinues : isSecond first second = true := by
      rw [isSecond_iff, isContinuation_iff]
      omega
    have hothers : isContinuation third = true ∧
        isContinuation fourth = true := by
      rw [isContinuation_iff, isContinuation_iff]
      omega
    simp [continuationCount, hcontinues, hothers]
  · show ((first.toNat % 8 * 64 + second.toNat % 64) * 64 +
      third.toNat % 64) * 64 +
      fourth.toNat % 64 = n
    omega

theorem isSequence_utf8EncodeChar (c : Char) :
    ∃ first others, String.utf8EncodeChar c = first :: others ∧
      IsSequence first others c.toNat := by
  have hvalid : c.toNat < 0xd800 ∨ (0xdfff < c.toNat ∧ c.toNat < 0x110000) :=
    c.valid
  have hbyte : ∀ n < 256, (UInt8.ofNat n).toNat = n := by simp
  simp only [String.utf8EncodeChar, Char.toNat_val]
  by_cases hone : c.toNat ≤ 127
  · exact ⟨_, _, if_pos hone, isSequence_one (by omega) (hbyte _ (by omega))⟩
  · rw [if_neg hone]
    by_cases htwo : c.toNat ≤ 2047
    · exact ⟨_, _, if_pos htwo,
        isSequence_two (by omega) (by omega) (hbyte _ (by omega))
        (hbyte _ (by omega))⟩
    · rw [if_neg htwo]
      by_cases hthree : c.toNat ≤ 65535
      · exact ⟨_, _, if_pos hthree,
          isSequence_three (by omega) (by omega) (by omega)
          (hbyte _ (by omega)) (hbyte _ (by omega)) (hbyte _ (by omega))⟩
      · exact ⟨_, _, if_neg hthree, isSequence_four (by omega) (by omega)
          (hbyte _ (by omega)) (hbyte _ (by omega)) (hbyte _ (by omega))
            (hbyte _ (by omega))⟩

/-- With fuel for every character, encoded characters are decoded to
themselves. -/
theorem decodeFrom_flatMap_utf8EncodeChar (chars : List Char)
    (position fuel : Nat) (hfuel : chars.length ≤ fuel) :
    decodeFrom position fuel (chars.flatMap String.utf8EncodeChar) =
      .ok chars := by
  induction chars generalizing position fuel with
  | nil => cases fuel <;> rfl
  | cons c chars ih =>
      rw [List.length_cons] at hfuel
      obtain ⟨fuel, rfl⟩ := Nat.exists_eq_add_of_le' (show 1 ≤ fuel by omega)
      obtain ⟨first, others, hencode, hsequence⟩ := isSequence_utf8EncodeChar c
      rw [List.flatMap_cons, hencode,
        hsequence.decodeFrom_append, ih _ _ (by omega), Char.ofNat_toNat]
      rfl

theorem length_le_flatMap_utf8EncodeChar (chars : List Char) :
    chars.length ≤ (chars.flatMap String.utf8EncodeChar).length := by
  induction chars with
  | nil => exact Nat.le_refl 0
  | cons c chars ih =>
      obtain ⟨first, others, hencode, -⟩ := isSequence_utf8EncodeChar c
      rw [List.flatMap_cons, hencode, List.length_append, List.length_cons,
        List.length_cons]
      omega

/-- Every text is decoded from its encoded form. -/
theorem decodeUtf8_toUTF8 (s : String) :
    decodeUtf8 s.toUTF8.toList = .ok s.toList := by
  rw [decodeUtf8, toList_toUTF8]
  exact decodeFrom_flatMap_utf8EncodeChar _ _ _
    (length_le_flatMap_utf8EncodeChar _)

end Sequences

theorem unifyLineEnds_eq_self {chars : List Char} (h : '\r' ∉ chars) :
    unifyLineEnds chars = chars := by
  induction chars with
  | nil => rfl
  | cons c chars ih =>
      rw [List.mem_cons, not_or] at h
      have hc : c ≠ '\r' := fun hc => h.1 hc.symm
      rw [unifyLineEnds, ih h.2]
      · exact fun _ heq => absurd heq hc
      · exact fun heq => absurd heq hc

/-- A text without carriage returns is read from its encoded form as it is. -/
theorem ofBytes_toUTF8 {s : String} (h : '\r' ∉ s.toList) :
    ofBytes s.toUTF8.toList = .ok s := by
  rw [ofBytes, decodeUtf8_toUTF8]
  show Except.ok (String.ofList (unifyLineEnds s.toList)) = .ok s
  rw [unifyLineEnds_eq_self h, String.ofList_toList]

end Text
end IndexAccess
