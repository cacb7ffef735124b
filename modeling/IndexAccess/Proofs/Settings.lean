import IndexAccess.Proofs.Number.Numerals
import IndexAccess.Proofs.Text.Quoted
import IndexAccess.Settings

/-!
# Which settings are rejected, and how

A level is a name or a numeral, and an indent is an integer that is not
negative.  Whatever else a variable is set to is rejected.  The message names
the variable, unless the level consists of digits that are no numeral: the
level is taken for an integer then, and the failure of reading one is passed on
as it is.
-/

namespace IndexAccess
namespace Settings

open Number (IsNumeral readInteger)

/-! ## Levels that are read and misread -/

section Levels

/-- The text of a level, in capitals and without blanks around it. -/
def levelText (raw : String) : String :=
  Text.capital (Text.trim raw)

def IsLevel (text : String) : Prop :=
  IsNumeral text ∨ ∃ level, Log.Level.named.lookup text = some level

/-- Digits that write no integer: there are others than decimal ones among
them, or they are too many. -/
structure IsMisread (text : String) : Prop where
  ne_empty : text ≠ ""
  digits : ∀ c ∈ text.toList, Text.isDigitLike c = true
  not_numeral : ¬IsNumeral text

variable {raw text : String}

theorem levelOf_of_digits (hne : text ≠ "")
    (hdigits : ∀ c ∈ text.toList, Text.isDigitLike c = true) :
    levelOf raw text = Value.integerOutcome (Text.quoted text)
      (readInteger text) := by
  have hall : (!text.isEmpty && text.toList.all Text.isDigitLike) = true := by
    rw [Bool.and_eq_true, Bool.not_eq_true', List.all_eq_true]
    exact ⟨by simpa using hne, hdigits⟩
  rw [levelOf, if_pos hall, Value.integerOfText, Text.toString_ofString]

theorem levelOf_of_not_digits
    (h : text = "" ∨ ¬∀ c ∈ text.toList, Text.isDigitLike c = true) :
    levelOf raw text =
      match Log.Level.named.lookup text with
      | some level => .ok level
      | none => .error (.value (.invalidLogLevel (Text.quoted raw))) := by
  have hnot : ¬(!text.isEmpty && text.toList.all Text.isDigitLike) = true := by
    rw [Bool.and_eq_true, Bool.not_eq_true', List.all_eq_true]
    rintro ⟨hne, hdigits⟩
    rcases h with rfl | h
    · cases hne
    · exact h hdigits
  unfold levelOf
  exact if_neg hnot

theorem named_not_digits {level : Nat}
    (h : Log.Level.named.lookup text = some level) :
    ¬∀ c ∈ text.toList, Text.isDigitLike c = true := by
  have hnames : ∀ entry ∈ Log.Level.named,
      entry.1.toList.all Text.isDigitLike = false := by
    decide +kernel
  rcases List.lookup_eq_some_iff.1 h with ⟨before, after, hnamed, -⟩
  have hmem : (text, level) ∈ Log.Level.named := by
    rw [hnamed]
    exact List.mem_append_right before List.mem_cons_self
  rw [← List.all_eq_true, hnames _ hmem]
  exact Bool.false_ne_true

theorem levelOf_of_isLevel (raw : String) (h : IsLevel text) :
    ∃ level : Nat, levelOf raw text = .ok level := by
  rcases h with hnumeral | ⟨level, hlookup⟩
  · rw [levelOf_of_digits hnumeral.ne_empty fun c hc =>
      Text.isDigitLike_of_decimal (hnumeral.decimal c hc),
      Number.readInteger_of_isNumeral hnumeral]
    exact ⟨_, rfl⟩
  · rw [levelOf_of_not_digits (.inr (named_not_digits hlookup)), hlookup]
    exact ⟨level, rfl⟩

theorem levelOf_of_isMisread (raw : String) (h : IsMisread text) :
    ∃ failure, levelOf raw text = .error (.value failure) ∧
      (failure = .invalidInteger (Value.abridged (Text.quoted text)) ∨
        ∃ count, failure = .tooManyDigits count) := by
  rcases Number.readInteger_of_not_isNumeral h.ne_empty h.digits
    h.not_numeral with
    ⟨fault, hread⟩
  rw [levelOf_of_digits h.ne_empty h.digits, hread]
  cases fault with
  | malformed => exact ⟨_, rfl, .inl rfl⟩
  | tooManyDigits count => exact ⟨_, rfl, .inr ⟨count, rfl⟩⟩

theorem levelOf_of_unknown (hlevel : ¬IsLevel text)
    (hmisread : ¬IsMisread text) :
    levelOf raw text = .error
      (.value (.invalidLogLevel (Text.quoted raw))) := by
  rw [IsLevel, not_or, not_exists] at hlevel
  have hnot : text = "" ∨ ¬∀ c ∈ text.toList, Text.isDigitLike c = true := by
    by_contra hdigits
    rw [not_or, not_not] at hdigits
    exact hmisread ⟨hdigits.1, hdigits.2, hlevel.1⟩
  have hlookup : Log.Level.named.lookup text = none :=
    Option.eq_none_iff_forall_ne_some.2 hlevel.2
  rw [levelOf_of_not_digits hnot, hlookup]

end Levels

/-! ## What the messages name -/

section Messages

/-- That the message of a failure holds a name. -/
def Names (name : String) (failure : ValueFailure) : Prop :=
  name.toList <:+: failure.message.toList

theorem names_of_message_eq {name : String} {failure : ValueFailure}
    (before after shown : String)
    (h : failure.message = before ++ name ++ after ++ shown) :
    Names name failure := by
  refine ⟨before.toList, after.toList ++ shown.toList, ?_⟩
  simp only [h, String.toList_append, List.append_assoc]

theorem names_invalidLogLevel (shown : String) :
    Names levelVariable (.invalidLogLevel shown) := by
  have hstart : "Invalid " ++ levelVariable ++ " value: " =
      "Invalid JSONINDEX_LOG_LEVEL value: " := by decide
  apply names_of_message_eq "Invalid " " value: " shown
  rw [hstart]
  rfl

theorem names_invalidIndent (shown : String) :
    Names indentVariable (.invalidIndent shown) := by
  have hstart : "Invalid " ++ indentVariable ++ " value: " =
      "Invalid JSONINDEX_JSON_INDENT value: " := by decide
  apply names_of_message_eq "Invalid " " value: " shown
  rw [hstart]
  rfl

theorem names_negativeIndent (shown : String) :
    Names indentVariable (.negativeIndent shown) := by
  have hstart : "" ++ indentVariable ++ " must not be negative, got " =
      "JSONINDEX_JSON_INDENT must not be negative, got " := by decide
  apply names_of_message_eq "" " must not be negative, got " shown
  rw [hstart]
  rfl

theorem not_names {name : String} {failure : ValueFailure}
    (hname : 'J' ∈ name.toList) (h : 'J' ∉ failure.message.toList) :
    ¬Names name failure :=
  fun hnames => h (List.IsInfix.subset hnames hname)

theorem not_mem_tooManyDigits (count : Nat) :
    'J' ∉ (ValueFailure.tooManyDigits count).message.toList := by
  have hnumber (n : Nat) : 'J' ∉ (toString n).toList := by
    intro hmem
    rw [Nat.toString_eq_repr, Nat.toList_repr] at hmem
    exact absurd (Nat.isDigit_of_mem_toDigits (by decide) (by decide)
      hmem) (by decide)
  have hmessage : (ValueFailure.tooManyDigits count).message =
      "Exceeds the limit (" ++ toString Number.digitLimit ++
        " digits) for integer string conversion: " ++
          ("value has " ++ toString count ++
        " digits; use sys.set_int_max_str_digits() to increase the limit") :=
          rfl
  rw [hmessage]
  simp only [String.toList_append, List.mem_append, hnumber, or_false]
  decide +kernel

theorem not_mem_invalidInteger {text : String}
    (h : ∀ c ∈ text.toList, Text.isDigitLike c = true) :
    'J' ∉ (ValueFailure.invalidInteger
      (Value.abridged (Text.quoted text))).message.toList := by
  have hshown : 'J' ∉ (Value.abridged (Text.quoted text)).toList := by
    intro hmem
    rw [Value.abridged, String.toList_ofList] at hmem
    rcases Text.mem_quoted (List.mem_of_mem_take hmem) with htext | hescape
    · exact absurd (h _ htext) (by decide +kernel)
    · exact absurd hescape (by decide +kernel)
  have hmessage (shown : String) :
      (ValueFailure.invalidInteger shown).message =
      "invalid literal for int() with base 10: " ++ shown := rfl
  rw [hmessage, String.toList_append, List.mem_append, not_or]
  exact ⟨by decide +kernel, hshown⟩

end Messages

/-! ## One variable and both -/

section Variables

/-- The failures that reject what a variable is set to, all of them failures of
its value and none of its type. -/
inductive IsRejection : ValueFailure → Prop where
  | unknownLevel (shown : String) : IsRejection (.invalidLogLevel shown)
  | noIndent (shown : String) : IsRejection (.invalidIndent shown)
  | negativeIndent (shown : String) : IsRejection (.negativeIndent shown)
  | noInteger (shown : String) : IsRejection (.invalidInteger shown)
  | tooManyDigits (count : Nat) : IsRejection (.tooManyDigits count)

/-- That a variable is left to its default, or set to a level. -/
def UsableLevel (raw : Option String) : Prop :=
  ∀ text ∈ given? raw, IsLevel (levelText text)

def MisreadLevel (raw : Option String) : Prop :=
  ∃ text ∈ given? raw, IsMisread (levelText text)

def UsableIndent (raw : Option String) : Prop :=
  ∀ text ∈ given? raw, ∃ i, readInteger text = .ok i ∧ 0 ≤ i

variable {raw : Option String}

theorem readLevel_of_usable (h : UsableLevel raw) :
    ∃ level, readLevel raw = .ok level ∧ 0 ≤ level := by
  cases hgiven : given? raw with
  | none => exact ⟨Log.Level.info, by rw [readLevel, hgiven], by decide⟩
  | some text =>
      rcases levelOf_of_isLevel text (h text hgiven) with ⟨level, hlevel⟩
      refine ⟨level, ?_, Int.natCast_nonneg level⟩
      rw [readLevel, hgiven]
      exact hlevel

theorem readLevel_of_unusable (h : ¬UsableLevel raw)
    (hmisread : ¬MisreadLevel raw) :
    ∃ failure, readLevel raw = .error (.value failure) ∧ IsRejection failure ∧
      Names levelVariable failure := by
  unfold UsableLevel at h
  push Not at h
  rcases h with ⟨text, hgiven, hlevel⟩
  refine ⟨_, ?_, .unknownLevel _, names_invalidLogLevel (Text.quoted text)⟩
  rw [readLevel, hgiven]
  exact levelOf_of_unknown hlevel fun htext => hmisread ⟨text, hgiven, htext⟩

theorem readLevel_of_misread (h : MisreadLevel raw) :
    ∃ failure, readLevel raw = .error (.value failure) ∧ IsRejection failure ∧
      ¬Names levelVariable failure ∧ ¬Names indentVariable failure := by
  rcases h with ⟨text, hgiven, htext⟩
  rcases levelOf_of_isMisread text htext with ⟨failure, hlevel, hcases⟩
  have hfailure : IsRejection failure ∧ 'J' ∉ failure.message.toList := by
    rcases hcases with rfl | ⟨count, rfl⟩
    · exact ⟨.noInteger _, not_mem_invalidInteger htext.digits⟩
    · exact ⟨.tooManyDigits count, not_mem_tooManyDigits count⟩
  refine ⟨failure, ?_, hfailure.1, not_names (by decide) hfailure.2,
    not_names (by decide) hfailure.2⟩
  rw [readLevel, hgiven]
  exact hlevel

theorem readIndent_of_usable (h : UsableIndent raw) :
    ∃ indent, readIndent raw = .ok indent ∧ indent ≠ some 0 := by
  cases hgiven : given? raw with
  | none => exact ⟨some 2, by rw [readIndent, hgiven], by decide⟩
  | some text =>
      rcases h text hgiven with ⟨i, hread, hnonneg⟩
      have hindent : readIndent raw = indentOf i := by
        simp only [readIndent, hgiven, hread]
      rw [hindent, indentOf, if_neg (Int.not_lt.2 hnonneg)]
      by_cases hzero : i = 0
      · exact ⟨none, if_pos hzero, Option.some_ne_none 0 |>.symm⟩
      · refine ⟨some i.toNat, if_neg hzero, ?_⟩
        rw [Ne, Option.some.injEq]
        omega

theorem readIndent_of_unusable (h : ¬UsableIndent raw) :
    ∃ failure, readIndent raw = .error (.value failure) ∧ IsRejection failure ∧
      Names indentVariable failure := by
  unfold UsableIndent at h
  push Not at h
  rcases h with ⟨text, hmem, hindent⟩
  have hgiven : given? raw = some text := hmem
  cases hread : readInteger text with
  | error fault =>
      refine ⟨_, ?_, .noIndent _, names_invalidIndent (Text.quoted text)⟩
      simp only [readIndent, hgiven, hread]
  | ok i =>
      refine ⟨_, ?_, .negativeIndent _,
        names_negativeIndent (Number.integerText i)⟩
      simp only [readIndent, hgiven, hread, indentOf, if_pos (hindent i hread)]

end Variables

/-- An environment is loaded if both variables are usable, and the settings
have a level that is not negative and an indent that is not zero.  Otherwise it
is rejected, and the message names a variable that is not usable, the level
before the indent.  Only for a level whose digits are no numeral it names
neither variable. -/
theorem load_names_variable_unless_misread (environment : Environment) :
    let level := environment.lookup levelVariable
    let indent := environment.lookup indentVariable
    (UsableLevel level → UsableIndent indent → ∃ settings,
      load environment = .ok settings ∧
      0 ≤ settings.logLevel ∧ settings.indent ≠ some 0) ∧
    (UsableLevel level → ¬UsableIndent indent → ∃ failure,
      load environment = .error (.value failure) ∧ IsRejection failure ∧
        Names indentVariable failure) ∧
    (¬UsableLevel level → ¬MisreadLevel level → ∃ failure,
      load environment = .error (.value failure) ∧ IsRejection failure ∧
        Names levelVariable failure) ∧
    (MisreadLevel level → ∃ failure,
      load environment = .error (.value failure) ∧ IsRejection failure ∧
        ¬Names levelVariable failure ∧ ¬Names indentVariable failure) := by
  intro level indent
  have hload : load environment = do
      let logLevel ← readLevel level
      let indent ← readIndent indent
      return { logLevel, indent } := rfl
  refine ⟨fun hlevel hindent => ?_, fun hlevel hindent => ?_,
    fun hlevel hmisread => ?_, fun hmisread => ?_⟩
  · rcases readLevel_of_usable hlevel with ⟨l, hl, hnonneg⟩
    rcases readIndent_of_usable hindent with ⟨i, hi, hne⟩
    rw [hload, hl, hi]
    exact ⟨⟨l, i⟩, rfl, hnonneg, hne⟩
  · rcases readLevel_of_usable hlevel with ⟨l, hl, -⟩
    rcases readIndent_of_unusable hindent with ⟨failure, hi, hnames⟩
    rw [hload, hl, hi]
    exact ⟨failure, rfl, hnames⟩
  · rcases readLevel_of_unusable hlevel hmisread with ⟨failure, hl, hnames⟩
    rw [hload, hl]
    exact ⟨failure, rfl, hnames⟩
  · rcases readLevel_of_misread hmisread with ⟨failure, hl, hnot⟩
    rw [hload, hl]
    exact ⟨failure, rfl, hnot⟩

/-- A superscript counts as a digit, and it is no decimal digit. -/
theorem load_does_not_name_variable_of_superscript :
    load [(levelVariable, "²")] = .error (.value (.invalidInteger "'²'")) ∧
      ¬Names levelVariable (.invalidInteger "'²'") := by
  have hgiven : given? (some "²") = some "²" := by cbv
  have htext : levelText "²" = "²" := by cbv
  have hread : readInteger "²" = .error .malformed := by decide +kernel
  have hquoted : Text.quoted (Text.ofString "²") = "'²'" := by decide +kernel
  have hlevel : readLevel (some "²") =
      .error (.value (.invalidInteger "'²'")) := by
    have hdigits : "²".toList.all Text.isDigitLike = true := by decide +kernel
    rw [readLevel, hgiven]
    change levelOf "²" (levelText "²") = _
    rw [htext, levelOf_of_digits (by decide) (List.all_eq_true.1 hdigits),
      hread, hquoted]
    rfl
  have hload : load [(levelVariable, "²")] =
      .error (.value (.invalidInteger "'²'")) := by
    rw [load]
    change readLevel (some "²") >>= _ = _
    rw [hlevel]
    rfl
  have hmessage : 'J' ∉ (ValueFailure.invalidInteger
      "'²'").message.toList := by
    decide +kernel
  exact ⟨hload, not_names (by decide) hmessage⟩

end Settings
end IndexAccess
