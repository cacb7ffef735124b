import IndexAccess.Text.Quoted
import Mathlib.Tactic.SplitIfs

/-!
# The characters of quoted texts

A quoted text holds no characters but those of the text itself, those of
escapes, and quotes.
-/

namespace IndexAccess
namespace Text

/-- The characters that escapes and quotes may consist of. -/
def escapeCharacters : List Char := ['\\', '\'', '"', 'n', 'r', 't', 'x', 'u',
  'U', '0', '1', '2', '3', '4', '5', '6', '7', '8', '9', 'a', 'b', 'c', 'd',
  'e', 'f']

theorem exists_of_mem_hexDigits {width code : Nat} {c : Char}
    (h : c ∈ hexDigits width code) :
    ∃ digit < 16, c = Nat.digitChar digit := by
  induction width generalizing code with
  | zero => exact nomatch h
  | succ width ih =>
      rw [hexDigits, List.mem_append, List.mem_singleton] at h
      rcases h with hrest | hlast
      · exact ih hrest
      · exact ⟨code % 16, Nat.mod_lt code (by decide), hlast⟩

theorem mem_numberEscape {code : Nat} {c : Char} (h : c ∈ numberEscape code) :
    c ∈ escapeCharacters := by
  have hdigits : ∀ digit < 16, Nat.digitChar digit ∈ escapeCharacters := by
    decide +kernel
  have hescape {kind : Char} {width : Nat} (hkind : kind ∈ escapeCharacters)
      (h : c ∈ '\\' :: kind :: hexDigits width code) : c ∈
        escapeCharacters := by
    rcases List.mem_cons.1 h with rfl | h
    · decide +kernel
    rcases List.mem_cons.1 h with rfl | h
    · exact hkind
    · rcases exists_of_mem_hexDigits h with ⟨digit, hlt, rfl⟩
      exact hdigits digit hlt
  unfold numberEscape at h
  split_ifs at h
  · exact hescape (by decide +kernel) h
  · exact hescape (by decide +kernel) h
  · exact hescape (by decide +kernel) h

theorem mem_shortEscape? {quote d c : Char} {escape : List Char}
    (hescape : shortEscape? quote d = some escape) (h : c ∈ escape) :
    c = d ∨ c ∈ escapeCharacters := by
  have hcharacters : ∀ e ∈ ['\\', 'n', 'r', 't'], e ∈ escapeCharacters := by
    simp [escapeCharacters]
  have hpair : ∃ e, (e = d ∨ e ∈ ['\\', 'n', 'r', 't']) ∧
      escape = ['\\', e] := by
    unfold shortEscape? at hescape
    split_ifs at hescape <;> cases hescape <;> simp
  rcases hpair with ⟨e, he, rfl⟩
  rcases List.mem_cons.1 h with rfl | h
  · exact .inr (hcharacters _ List.mem_cons_self)
  · rcases List.mem_singleton.1 h with rfl
    exact he.imp_right (hcharacters _)

theorem mem_quotedChar {quote d c : Char} (h : c ∈ quotedChar quote d) :
    c = d ∨ c ∈ escapeCharacters := by
  unfold quotedChar at h
  split at h
  next escape hescape => exact mem_shortEscape? hescape h
  next =>
      split at h
      next => exact .inl (List.mem_singleton.1 h)
      next => exact .inr (mem_numberEscape h)

/-- A quoted text consists of the characters of the text and those of quotes
and escapes. -/
theorem mem_quoted {text : String} {c : Char} (h : c ∈ (quoted text).toList) :
    c ∈ text.toList ∨ c ∈ escapeCharacters := by
  have hquote : quoteOf (ofString text).chars ∈ escapeCharacters := by
    unfold quoteOf
    split <;> decide +kernel
  rw [quoted, String.toList_ofList, List.cons_append, List.mem_cons,
    List.mem_append, List.mem_singleton, List.mem_flatMap] at h
  rcases h with rfl | ⟨point, hpoint, hc⟩ | rfl
  · exact .inr hquote
  · rcases List.mem_map.1 hpoint with ⟨d, hd, rfl⟩
    rcases mem_quotedChar hc with rfl | hescape
    · exact .inl hd
    · exact .inr hescape
  · exact .inr hquote

end Text
end IndexAccess
