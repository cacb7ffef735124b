import IndexAccess.Proofs.Json.Document
import IndexAccess.Proofs.Json.Numbers
import IndexAccess.Proofs.Json.Strings
import IndexAccess.Proofs.Node.Document

/-!
# Printed documents are read back

Reading undoes printing with every indent.  What stands between the members of
a container is a comma and blanks, which the reader skips, and every value is
read back wherever it stands.  The reader's fuel is three times the length of a
text, and so much is enough for each part of the text on its own.
-/

namespace IndexAccess
namespace Json

open CodePoint (ofChars)

/-! ## Blanks and separators -/

section Blanks

/-- A text that starts with something else than a blank. -/
def StartsPlain (cs : List CodePoint) : Prop :=
  ∀ c ∈ cs.head?, isBlank c = false

theorem skipBlanks_append {blanks cs : List CodePoint}
    (hblanks : ∀ c ∈ blanks, isBlank c = true) (hcs : StartsPlain cs) :
    skipBlanks (blanks ++ cs) = cs := by
  rw [skipBlanks, List.dropWhile_append_of_pos hblanks]
  cases cs with
  | nil => rfl
  | cons c rest => simp [hcs c (by simp)]

theorem skipBlanks_of_startsPlain {cs : List CodePoint}
    (hcs : StartsPlain cs) :
    skipBlanks cs = cs :=
  skipBlanks_append (show ∀ c ∈ [], isBlank c = true by simp) hcs

theorem startsPlain_cons {c : CodePoint} {rest : List CodePoint}
    (hc : isBlank c = false) :
    StartsPlain (c :: rest) := by
  intro d hd
  obtain rfl : c = d := by simpa using hd
  exact hc

theorem isDigit_eq_false_of_isBlank {p : CodePoint} (hp : isBlank p = true) :
    isDigit p = false ∧ p ≠ .char '.' ∧ p ≠ .char 'e' ∧ p ≠ .char 'E' := by
  cases p with
  | char c =>
      simp only [isBlank, Bool.or_eq_true, beq_iff_eq] at hp
      rcases hp with ((rfl | rfl) | rfl) | rfl <;> decide
  | surrogate s => cases hp

theorem stopsNumber_append {blanks cs : List CodePoint}
    (hblanks : ∀ c ∈ blanks, isBlank c = true) (hcs : StopsNumber cs) :
    StopsNumber (blanks ++ cs) := by
  cases blanks with
  | nil => exact hcs
  | cons b blanks =>
      intro c hc
      obtain rfl : b = c := by simpa using hc
      exact isDigit_eq_false_of_isBlank (hblanks b (by simp))

theorem stopsNumber_cons {c : Char} (hc : c ∈ [',', ']', '}'])
    (rest : List CodePoint) :
    StopsNumber (.char c :: rest) := by
  have hstops : ∀ d ∈ [',', ']', '}'], isDigit (.char d) = false ∧
      CodePoint.char d ≠ .char '.' ∧ CodePoint.char d ≠ .char 'e' ∧
      CodePoint.char d ≠ .char 'E' := by
    simp [isDigit]
  intro p hp
  obtain rfl : .char c = p := by simpa using hp
  exact hstops c hc

/-- Separators that consist of blanks, apart from the comma between members. -/
structure Separators.AreBlank (s : Separators) : Prop where
  opening : ∀ p ∈ ofChars s.opening, isBlank p = true
  between : ∃ blanks, s.between = ',' :: blanks ∧ ∀ p ∈ ofChars blanks,
    isBlank p = true
  closing : ∀ p ∈ ofChars s.closing, isBlank p = true

theorem isBlank_of_mem_line {n : Nat} {p : CodePoint}
    (hp : p ∈ ofChars ('\n' :: List.replicate n ' ')) : isBlank p = true := by
  obtain ⟨c, hc, rfl⟩ := List.mem_map.1 hp
  rcases List.mem_cons.1 hc with rfl | hc
  · rfl
  · rw [List.eq_of_mem_replicate hc]
    rfl

theorem Separators.areBlank_at (indent : Option Nat) (level : Nat) :
    (Separators.at indent level).AreBlank := by
  cases indent with
  | none =>
      refine ⟨?_, ⟨[' '], rfl, by simp [isBlank]⟩, ?_⟩
      all_goals simp [Separators.at]
  | some width =>
      refine ⟨?_, ⟨_, rfl, ?_⟩, ?_⟩
      · exact fun p hp => isBlank_of_mem_line hp
      · exact fun p hp => isBlank_of_mem_line hp
      · exact fun p hp => isBlank_of_mem_line hp

theorem bracketed_of_ne_nil {opening closing : Char}
    {indent : Option Nat} {level : Nat} {members : List (List Char)}
    (hne : members ≠ []) :
    bracketed opening closing indent level members =
      opening :: ((Separators.at indent level).opening ++
        ((Separators.at indent level).between.intercalate members ++
          ((Separators.at indent level).closing ++ [closing]))) := by
  have hempty : ¬members.isEmpty = true := by simpa using hne
  rw [bracketed, if_neg hempty]
  simp

end Blanks

/-! ## What values start with -/

section Starts

variable {cs rest : List CodePoint}

/-- A text that may start a value: what it starts with is skipped neither as a
blank nor taken for the end of a list or for a byte order mark. -/
def StartsValue (cs : List CodePoint) : Prop :=
  ∃ p rest, cs = p :: rest ∧ isBlank p = false ∧ p ≠ .char ']' ∧
    p ≠ .char '\ufeff'

theorem StartsValue.startsPlain (h : StartsValue cs) : StartsPlain cs := by
  obtain ⟨p, rest, rfl, hp, -⟩ := h
  exact startsPlain_cons hp

/-- No word and no number starts with one of these. -/
theorem readPlain_error {c : Char}
    (hc : c ∈ [' ', '\t', '\n', '\r', ']', '\ufeff', '"', '{', '['])
    (rest : List CodePoint) :
    readPlain (.char c :: rest) =
      .error (.malformed .expectedValue (.char c :: rest)) := by
  simp only [List.mem_cons, List.not_mem_nil, or_false] at hc
  rcases hc with rfl | rfl | rfl | rfl | rfl | rfl | rfl | rfl | rfl <;>
    simp [readPlain, words, readNumber, splitMinus, splitWhole, leadingDigits,
      isDigit]

theorem readPlain_surrogate (s : Surrogate) (rest : List CodePoint) :
    readPlain (.surrogate s :: rest) =
      .error (.malformed .expectedValue (.surrogate s :: rest)) := by
  simp [readPlain, words, readNumber, splitMinus, splitWhole, leadingDigits,
    isDigit]

theorem readPlain_nil : readPlain [] =
    .error (.malformed .expectedValue []) := by
  rfl

theorem startsValue_of_readPlain {reading : Value × List CodePoint}
    (h : readPlain cs = .ok reading) :
    StartsValue cs := by
  match cs with
  | [] => simp [readPlain_nil] at h
  | .surrogate s :: rest => simp [readPlain_surrogate] at h
  | .char c :: rest =>
      have hc : c ∉ [' ', '\t', '\n', '\r', ']', '\ufeff', '"', '{', '['] := by
        intro hc
        rw [readPlain_error hc] at h
        cases h
      simp only [List.mem_cons, List.not_mem_nil, or_false, not_or] at hc
      refine ⟨c, rest, rfl, ?_, ?_, ?_⟩
      · simp [isBlank, hc]
      · simp [hc]
      · simp [hc]

theorem startsValue_of_readValue {fuel : Nat}
    {reading : Value × List CodePoint} (h : readValue fuel cs = .ok reading) :
    StartsValue cs := by
  unfold readValue at h
  split at h
  next => cases h
  next =>
    dsimp only at h
    split at h
    next => exact ⟨_, _, rfl, rfl, by decide, by decide⟩
    next => exact ⟨_, _, rfl, rfl, by decide, by decide⟩
    next => exact ⟨_, _, rfl, rfl, by decide, by decide⟩
    next => exact startsValue_of_readPlain h

theorem startsValue_of_readItems {fuel : Nat}
    {reading : List Value × List CodePoint}
    (h : readItems fuel cs = .ok reading) : StartsValue cs := by
  cases fuel with
  | zero => simp [readItems] at h
  | succ fuel =>
      rw [readItems] at h
      obtain ⟨⟨value, after⟩, hvalue, -⟩ := ok_of_bind_eq_ok h
      exact startsValue_of_readValue hvalue

theorem readValue_of_readPlain {fuel : Nat} {reading : Value × List CodePoint}
    (h : readPlain cs = .ok reading) :
    readValue (fuel + 1) cs = .ok reading := by
  unfold readValue
  dsimp only
  split
  next rest =>
    rw [readPlain_error (by simp)] at h
    cases h
  next rest =>
    rw [readPlain_error (by simp)] at h
    cases h
  next rest =>
    rw [readPlain_error (by simp)] at h
    cases h
  next => exact h

end Starts

/-! ## One step of each reader -/

section Steps

variable {fuel : Nat} {cs body after rest : List CodePoint} {name : Text}
  {value : Value}

theorem readItems_last (hvalue : readValue fuel cs = .ok (value, after))
    (hskip : skipBlanks after = .char ']' :: rest) :
    readItems (fuel + 1) cs = .ok ([value], rest) := by
  simp only [readItems, hvalue, bind, Except.bind, hskip]

theorem readItems_more {items : List Value}
    (hvalue : readValue fuel cs = .ok (value, after))
    (hskip : skipBlanks after = .char ',' :: body)
    (hitems : readItems fuel (skipBlanks body) = .ok (items, rest)) :
    readItems (fuel + 1) cs = .ok (value :: items, rest) := by
  simp only [readItems, hvalue, bind, Except.bind, hskip, hitems]
  rfl

theorem readMembers_last (hname : readName cs = .ok (name, body))
    (hvalue : readValue fuel body = .ok (value, after))
    (hskip : skipBlanks after = .char '}' :: rest) :
    readMembers (fuel + 1) cs = .ok ([(name, value)], rest) := by
  simp only [readMembers, hname, hvalue, bind, Except.bind, hskip]

theorem readMembers_more {others : List CodePoint}
    {members : List (Text × Value)} (hname : readName cs = .ok (name, body))
    (hvalue : readValue fuel body = .ok (value, after))
    (hskip : skipBlanks after = .char ',' :: others)
    (hmembers : readMembers fuel (skipBlanks others) = .ok (members, rest)) :
    readMembers (fuel + 1) cs = .ok ((name, value) :: members, rest) := by
  simp only [readMembers, hname, hvalue, bind, Except.bind, hskip, hmembers]
  rfl

/-- A printed name is read back together with its colon. -/
theorem readName_printedText (hname : name.Paired) (hbody : StartsPlain body) :
    readName (ofChars (printedText name) ++ .char ':' :: .char ' ' :: body) =
      .ok (name, body) := by
  have hblank : ∀ p ∈ ofChars [' '], isBlank p = true := by decide
  have hskip : skipBlanks (.char ' ' :: body) = body :=
    skipBlanks_append hblank hbody
  have hcolon : skipBlanks (.char ':' :: .char ' ' :: body) =
      .char ':' :: .char ' ' :: body :=
    rfl
  rw [printedText, List.cons_append, CodePoint.ofChars_cons,
    CodePoint.ofChars_append, List.cons_append, List.append_assoc,
    CodePoint.ofChars_cons, CodePoint.ofChars_nil, List.singleton_append,
    readName, readString_printedPoints hname]
  simp only [bind, Except.bind, hcolon, hskip]

theorem eq_cons_of_readMembers {reading : List (Text × Value) × List CodePoint}
    (h : readMembers fuel cs = .ok reading) :
    ∃ rest, cs = .char '"' :: rest := by
  cases fuel with
  | zero => simp [readMembers] at h
  | succ fuel =>
      rw [readMembers] at h
      obtain ⟨⟨name, body⟩, hname, -⟩ := ok_of_bind_eq_ok h
      unfold readName at hname
      split at hname
      next rest => exact ⟨rest, rfl⟩
      next => cases hname

theorem startsPlain_of_readMembers
    {reading : List (Text × Value) × List CodePoint}
    (h : readMembers fuel cs = .ok reading) : StartsPlain cs := by
  obtain ⟨rest, rfl⟩ := eq_cons_of_readMembers h
  exact startsPlain_cons rfl

theorem readValue_emptyList :
    readValue (fuel + 1) (.char '[' :: .char ']' :: rest) =
      .ok (.list [], rest) := by
  have hskip : skipBlanks (.char ']' :: rest) = .char ']' :: rest := rfl
  rw [readValue, hskip, readArray]

theorem readValue_list {items : List Value}
    (h : readItems fuel (skipBlanks cs) = .ok (items, rest)) :
    readValue (fuel + 2) (.char '[' :: cs) = .ok (.list items, rest) := by
  obtain ⟨c, tail, hstart, -, hne, -⟩ := startsValue_of_readItems h
  rw [hstart] at h
  rw [readValue, hstart, readArray, h]
  · rfl
  · intro other heq
    exact hne (List.cons.inj heq).1

theorem readValue_emptyObject :
    readValue (fuel + 1) (.char '{' :: .char '}' :: rest) =
      .ok (dictOf [], rest) := by
  have hskip : skipBlanks (.char '}' :: rest) = .char '}' :: rest := rfl
  rw [readValue, hskip, readObject]

theorem readValue_object {members : List (Text × Value)}
    (h : readMembers fuel (skipBlanks cs) = .ok (members, rest)) :
    readValue (fuel + 2) (.char '{' :: cs) = .ok (dictOf members, rest) := by
  obtain ⟨tail, hstart⟩ := eq_cons_of_readMembers h
  rw [hstart] at h
  rw [readValue, hstart, readObject, h]
  · rfl
  · simp

end Steps

/-! ## Members of containers -/

section Containers

variable {indent : Option Nat} {level fuel : Nat} {rest : List CodePoint}

/-- A value that is read back from its printed form wherever that stands. -/
def ReadsBack (indent : Option Nat) (v : Value) : Prop :=
  ∀ level fuel rest, StopsNumber rest →
    3 * (printed indent level v).length ≤ fuel →
    readValue fuel (ofChars (printed indent level v) ++ rest) = .ok (v, rest)

theorem readItems_printed {s : Separators} (hs : s.AreBlank)
    {items : List Value} (hne : items ≠ [])
    (hitems : ∀ item ∈ items, ReadsBack indent item)
    (hfuel : 3 * (s.between.intercalate
      (printedItems indent level items)).length + 1 ≤ fuel) :
    readItems fuel (ofChars
      (s.between.intercalate (printedItems indent level items)) ++
      (ofChars s.closing ++ .char ']' :: rest)) = .ok (items, rest) := by
  induction items generalizing fuel with
  | nil => contradiction
  | cons item others ih =>
      obtain ⟨fuel, rfl⟩ :=
        Nat.exists_eq_add_of_le' (Nat.le_of_add_left_le hfuel)
      have hitem := hitems item (by simp) level fuel
      cases others with
      | nil =>
          have hstops : StopsNumber (ofChars s.closing ++ .char ']' :: rest) :=
            stopsNumber_append hs.closing (stopsNumber_cons (by simp) rest)
          simp only [printedItems, List.intercalate_singleton] at hfuel ⊢
          exact readItems_last (hitem _ hstops (by omega))
            (skipBlanks_append hs.closing (startsPlain_cons rfl))
      | cons next others =>
          obtain ⟨blanks, hbetween, hblanks⟩ := hs.between
          simp only [printedItems, List.intercalate_cons_cons, hbetween,
            List.append_assoc, List.cons_append, CodePoint.ofChars_append,
            CodePoint.ofChars_cons, List.length_append,
            List.length_cons] at hfuel ih ⊢
          have hothers := @ih fuel (by simp)
            (fun v hv => hitems v (List.mem_cons_of_mem item hv)) (by omega)
          have hskip := skipBlanks_append hblanks
            (startsValue_of_readItems hothers).startsPlain
          rw [← hskip] at hothers
          exact readItems_more
            (hitem _ (stopsNumber_cons (by simp) _) (by omega)) rfl hothers

theorem readMembers_printed {s : Separators} (hs : s.AreBlank)
    {members : List (Text × Value)} (hne : members ≠ [])
    (hnames : ∀ name value, (name, value) ∈ members → name.Paired)
    (hvalues : ∀ name value, (name, value) ∈ members → ReadsBack indent value)
    (hfuel : 3 * (s.between.intercalate (printedEntries indent level
      (members.map fun (name, value) => (.text name, value)))).length + 1 ≤
        fuel) :
    readMembers fuel (ofChars
      (s.between.intercalate (printedEntries indent level
        (members.map fun (name, value) => (.text name, value)))) ++
      (ofChars s.closing ++ .char '}' :: rest)) = .ok (members, rest) := by
  induction members generalizing fuel with
  | nil => contradiction
  | cons member others ih =>
      obtain ⟨name, value⟩ := member
      obtain ⟨fuel, rfl⟩ :=
        Nat.exists_eq_add_of_le' (Nat.le_of_add_left_le hfuel)
      have hname := hnames name value (by simp)
      have hvalue := hvalues name value (by simp) level fuel
      cases others with
      | nil =>
          have hstops : StopsNumber (ofChars s.closing ++ .char '}' :: rest) :=
            stopsNumber_append hs.closing (stopsNumber_cons (by simp) rest)
          simp only [printedEntries, List.map_cons, List.map_nil, keyText,
            List.intercalate_singleton, List.append_assoc, List.cons_append,
            CodePoint.ofChars_append, CodePoint.ofChars_cons,
            List.length_append, List.length_cons] at hfuel ⊢
          have hread := hvalue _ hstops (by omega)
          exact readMembers_last
            (readName_printedText hname
              (startsValue_of_readValue hread).startsPlain) hread
            (skipBlanks_append hs.closing (startsPlain_cons rfl))
      | cons next others =>
          obtain ⟨blanks, hbetween, hblanks⟩ := hs.between
          simp only [printedEntries, List.map_cons, keyText,
            List.intercalate_cons_cons, hbetween, List.append_assoc,
            List.cons_append, CodePoint.ofChars_append, CodePoint.ofChars_cons,
            List.length_append, List.length_cons] at hfuel ih ⊢
          have hothers := @ih fuel (by simp)
            (fun n v hv => hnames n v (List.mem_cons_of_mem _ hv))
            (fun n v hv => hvalues n v (List.mem_cons_of_mem _ hv)) (by omega)
          have hskip := skipBlanks_append hblanks
            (startsPlain_of_readMembers hothers)
          have hstops := stopsNumber_cons (show ',' ∈ [',', ']', '}'] by simp)
          rw [← hskip] at hothers
          refine readMembers_more (readName_printedText hname ?_)
            (hvalue _ (hstops _) (by omega)) rfl hothers
          exact (startsValue_of_readValue
            (hvalue _ (hstops _) (by omega))).startsPlain

end Containers

/-! ## Values and whole documents -/

section Values

variable {indent : Option Nat}

theorem stopsNumber_nil : StopsNumber [] := by
  intro c hc
  cases hc

theorem readsBack_of_readPlain {v : Value}
    (h : ∀ level rest, StopsNumber rest →
      readPlain (ofChars (printed indent level v) ++ rest) = .ok (v, rest)) :
    ReadsBack indent v := by
  intro level fuel rest hrest hfuel
  obtain ⟨p, tail, htext, -⟩ :=
    startsValue_of_readPlain (h level [] stopsNumber_nil)
  rw [List.append_nil] at htext
  rw [← CodePoint.length_ofChars, htext, List.length_cons] at hfuel
  obtain ⟨fuel, rfl⟩ := Nat.exists_eq_succ_of_ne_zero (show fuel ≠ 0 by omega)
  exact readValue_of_readPlain (h level rest hrest)

theorem readsBack_null : ReadsBack indent .null := by
  apply readsBack_of_readPlain
  intro level rest _
  simp [printed, readPlain, words]

theorem readsBack_boolean (b : Bool) : ReadsBack indent (.boolean b) := by
  apply readsBack_of_readPlain
  intro level rest _
  cases b <;> simp [printed, readPlain, words]

theorem readsBack_integer {i : Int} (hi : Number.isWritable i = true) :
    ReadsBack indent (.integer i) := by
  apply readsBack_of_readPlain
  intro level rest hrest
  rw [printed]
  exact readPlain_integerText hi hrest

theorem readsBack_number (x : FiniteBinary64) :
    ReadsBack indent (.number (.finite x)) := by
  apply readsBack_of_readPlain
  intro level rest hrest
  rw [printed, Binary64.write, String.toList_ofList]
  exact readPlain_finiteText numberLayout x hrest

theorem readsBack_text {t : Text} (ht : t.Paired) :
    ReadsBack indent (.text t) := by
  intro level fuel rest _ hfuel
  rw [printed, printedText, List.length_append, List.length_cons] at hfuel
  obtain ⟨fuel, rfl⟩ := Nat.exists_eq_succ_of_ne_zero (show fuel ≠ 0 by omega)
  rw [printed, printedText, List.cons_append, CodePoint.ofChars_cons,
    CodePoint.ofChars_append, List.cons_append, List.append_assoc,
    CodePoint.ofChars_cons, CodePoint.ofChars_nil, List.singleton_append,
    readValue, readString_printedPoints ht]
  rfl

theorem readsBack_list {items : List Value}
    (hitems : ∀ item ∈ items, ReadsBack indent item) :
    ReadsBack indent (.list items) := by
  intro level fuel rest hrest hfuel
  cases items with
  | nil =>
      have htext : printed indent level (.list []) = ['[', ']'] := by
        rw [printed, printedItems]
        rfl
      rw [htext] at hfuel ⊢
      obtain ⟨fuel, rfl⟩ :=
        Nat.exists_eq_add_of_le' (show 1 ≤ fuel by simp at hfuel; omega)
      exact readValue_emptyList
  | cons item others =>
      have hs := Separators.areBlank_at indent level
      have hne : printedItems indent (level + 1) (item :: others) ≠ [] := by
        simp [printedItems]
      rw [printed, bracketed_of_ne_nil hne] at hfuel ⊢
      simp only [List.length_cons, List.length_append] at hfuel
      obtain ⟨fuel, rfl⟩ := Nat.exists_eq_add_of_le' (show 2 ≤ fuel by omega)
      have hread : readItems fuel _ = .ok (item :: others, rest) :=
        readItems_printed hs (List.cons_ne_nil item others) hitems
          (show 3 * (List.intercalate _
            (printedItems indent (level + 1) _)).length + 1 ≤ fuel by
            omega)
      rw [← skipBlanks_append hs.opening
        (startsValue_of_readItems hread).startsPlain] at hread
      simp only [CodePoint.ofChars_cons, CodePoint.ofChars_append,
        CodePoint.ofChars_nil, List.cons_append, List.append_assoc,
        List.nil_append]
      exact readValue_list hread

theorem dictOf_of_nodup {fields : List (Text × Value)}
    (h : (Entries.keys fields).Nodup) :
    dictOf fields = dictValue fields := by
  rw [dictOf, Entries.ofList_of_nodup h]
  rfl

theorem readsBack_dictValue {fields : List (Text × Value)}
    (hkeys : (Entries.keys fields).Nodup)
    (hnames : ∀ name value, (name, value) ∈ fields → name.Paired)
    (hvalues : ∀ name value, (name, value) ∈ fields → ReadsBack indent value) :
    ReadsBack indent (dictValue fields) := by
  intro level fuel rest hrest hfuel
  cases fields with
  | nil =>
      have htext : printed indent level (dictValue []) = ['{', '}'] := by
        rw [dictValue, List.map_nil, printed, printedEntries]
        rfl
      rw [htext] at hfuel ⊢
      obtain ⟨fuel, rfl⟩ :=
        Nat.exists_eq_add_of_le' (show 1 ≤ fuel by simp at hfuel; omega)
      exact readValue_emptyObject
  | cons field others =>
      have hs := Separators.areBlank_at indent level
      have hne : printedEntries indent (level + 1)
          ((field :: others).map fun (name, value) =>
            (.text name, value)) ≠ [] := by
        simp [printedEntries]
      rw [dictValue, printed, bracketed_of_ne_nil hne] at hfuel ⊢
      rw [List.length_cons, List.length_append, List.length_append] at hfuel
      obtain ⟨fuel, rfl⟩ := Nat.exists_eq_add_of_le' (show 2 ≤ fuel by omega)
      have hread : readMembers fuel _ = .ok (field :: others, rest) :=
        readMembers_printed hs (List.cons_ne_nil field others) hnames hvalues
          (show 3 * (List.intercalate _
            (printedEntries indent (level + 1) _)).length + 1 ≤ fuel by
            omega)
      rw [← skipBlanks_append hs.opening
        (startsPlain_of_readMembers hread)] at hread
      simp only [CodePoint.ofChars_cons, CodePoint.ofChars_append,
        CodePoint.ofChars_nil, List.cons_append, List.append_assoc,
        List.nil_append]
      rw [readValue_object hread, dictOf_of_nodup hkeys]
      rfl

/-- Every value that documents hold is read back, if its numbers are finite. -/
theorem readsBack_of_isDocument {v : Value} (hv : IsDocument Text.Paired v)
    (hfinite : v.hasFiniteNumbers = true) : ReadsBack indent v := by
  induction hv with
  | null => exact readsBack_null
  | boolean b => exact readsBack_boolean b
  | integer hwritable => exact readsBack_integer hwritable
  | number x =>
      cases x with
      | finite x => exact readsBack_number x
      | infinite negative => cases hfinite
      | nan => cases hfinite
  | text ht => exact readsBack_text ht
  | list items_document ih =>
      rw [Value.hasFiniteNumbers, Value.haveFiniteNumbers_iff] at hfinite
      exact readsBack_list fun item hitem => ih item hitem (hfinite item hitem)
  | dict keys_nodup names_paired values_document ih =>
      rw [Value.hasFiniteNumbers_dictValue_iff] at hfinite
      exact readsBack_dictValue keys_nodup names_paired fun name value hmem =>
        ih name value hmem (hfinite name value hmem)

/-- A printed document is read back, with blanks after it or without. -/
theorem readDocument_printed {v : Value} (hv : IsDocument Text.Paired v)
    (hfinite : v.hasFiniteNumbers = true) (indent : Option Nat)
    {blanks : List CodePoint} (hblanks : ∀ p ∈ blanks, isBlank p = true) :
    readDocument ⟨ofChars (printed indent 0 v) ++ blanks⟩ = .ok v := by
  have hstops : StopsNumber blanks := by
    rw [← List.append_nil blanks]
    exact stopsNumber_append hblanks stopsNumber_nil
  have hlength : 3 * (printed indent 0 v).length ≤
      3 * (ofChars (printed indent 0 v) ++ blanks).length + 3 := by
    rw [List.length_append, CodePoint.length_ofChars]
    omega
  have hread := readsBack_of_isDocument hv hfinite 0 _ blanks hstops hlength
  have hstart := startsValue_of_readValue hread
  have hskip := skipBlanks_of_startsPlain hstart.startsPlain
  have hend : skipBlanks blanks = [] := by
    have hnone := skipBlanks_append hblanks
      (show StartsPlain [] by simp [StartsPlain])
    rwa [List.append_nil] at hnone
  obtain ⟨p, rest, htext, -, -, hmark⟩ := hstart
  unfold readDocument
  split
  next heq =>
    dsimp only at heq
    rw [heq] at htext
    exact absurd (List.cons.inj htext).1.symm hmark
  next =>
    rw [hskip, hread]
    simp only [bind, Except.bind, hend]

end Values

end Json
end IndexAccess
