import IndexAccess.Json.Reader
import IndexAccess.Proofs.Outcome

/-!
# What the readers leave

Every reader of a part of a document leaves a suffix of the text it starts
from, and the only digits that it finds too many stand in a row in that text.
-/

namespace IndexAccess
namespace Json

open CodePoint (ofChars)

/-- A text with so many digits in a row, which are more than the limit. -/
def HoldsDigits (count : Nat) (cs : List CodePoint) : Prop :=
  Number.digitLimit < count ∧ ∃ digits : List Char,
    ofChars digits <:+: cs ∧ (∀ c ∈ digits, c.isDigit = true) ∧
    digits.length = count

theorem HoldsDigits.mono {count : Nat} {cs cs' : List CodePoint}
    (h : HoldsDigits count cs) (hsuffix : cs <:+ cs') :
    HoldsDigits count cs' := by
  obtain ⟨hlimit, digits, hblock, hdigits, hlength⟩ := h
  exact ⟨hlimit, digits, hblock.trans hsuffix.isInfix, hdigits, hlength⟩

/-- What a reading that starts from `cs` leaves, and which digits it finds too
many. -/
structure ReadsWithin {α : Type} (cs : List CodePoint)
    (reading : Except Fault (α × List CodePoint)) :
    Prop where
  rest_suffix : ∀ a rest, reading = .ok (a, rest) → rest <:+ cs
  holdsDigits : ∀ count, reading = .error (.tooManyDigits count) →
    HoldsDigits count cs

namespace ReadsWithin

variable {α β : Type} {cs cs' rest : List CodePoint}
  {reading : Except Fault (α × List CodePoint)}

theorem ok (a : α) (h : rest <:+ cs) : ReadsWithin cs (.ok (a, rest)) where
  rest_suffix b rest' heq := by
    obtain ⟨-, rfl⟩ := Prod.mk.inj (Except.ok.inj heq)
    exact h
  holdsDigits _ heq := by cases heq

theorem malformed (kind : FaultKind) (rest : List CodePoint) :
    ReadsWithin cs (.error (.malformed kind rest) : Reading α) where
  rest_suffix _ _ heq := by cases heq
  holdsDigits _ heq := by cases heq

theorem mono (h : ReadsWithin cs reading) (hsuffix : cs <:+ cs') :
    ReadsWithin cs' reading where
  rest_suffix a rest heq := (h.rest_suffix a rest heq).trans hsuffix
  holdsDigits count heq := (h.holdsDigits count heq).mono hsuffix

theorem bind {next : α × List CodePoint → Except Fault (β × List CodePoint)}
    (h : ReadsWithin cs reading)
    (hnext : ∀ a rest, rest <:+ cs → ReadsWithin cs (next (a, rest))) :
    ReadsWithin cs (reading >>= next) := by
  cases reading with
  | ok part =>
      obtain ⟨a, rest⟩ := part
      exact hnext a rest (h.rest_suffix a rest rfl)
  | error fault =>
      refine ⟨nofun, fun count heq => h.holdsDigits count ?_⟩
      rw [Except.error.inj heq]

theorem map {f : α × List CodePoint → β × List CodePoint}
    (h : ReadsWithin cs reading) (hf : ∀ part, (f part).2 = part.2) :
    ReadsWithin cs (reading.map f) := by
  cases reading with
  | ok part =>
      have hrest : (f part).2 <:+ cs := by
        rw [hf]
        exact h.rest_suffix part.1 part.2 rfl
      exact ok (f part).1 hrest
  | error fault =>
      refine ⟨nofun, fun count heq => h.holdsDigits count ?_⟩
      rw [Except.error.inj heq]

end ReadsWithin

/-! ## Readers of strings and numbers -/

section Parts

theorem skipBlanks_suffix (cs : List CodePoint) : skipBlanks cs <:+ cs :=
  List.dropWhile_suffix isBlank

theorem suffix_of_skipBlanks_eq_cons {cs rest : List CodePoint} {c : CodePoint}
    (h : skipBlanks cs = c :: rest) : rest <:+ cs := by
  have hcons := skipBlanks_suffix cs
  rw [h] at hcons
  exact (List.suffix_cons c rest).trans hcons

theorem readsWithin_cons {first : Text.Written} {cs cs' : List CodePoint}
    {reading : Reading (List Text.Written)} (h : ReadsWithin cs reading)
    (hsuffix : cs <:+ cs') :
    ReadsWithin cs' (Reading.cons first reading) :=
  (h.mono hsuffix).map fun _ => rfl

theorem readsWithin_readWritten (start cs : List CodePoint) :
    ReadsWithin cs (readWritten start cs) := by
  induction cs using readWritten.induct with
  | case1 => exact .malformed _ _
  | case2 rest => exact .ok [] (List.suffix_cons _ _)
  | case3 => exact .malformed _ _
  | case4 a b c d next rest code hcode ih =>
      have hsuffix : next :: rest <:+
          .char '\\' :: .char 'u' :: a :: b :: c :: d :: next :: rest :=
        ⟨['\\', 'u', a, b, c, d], rfl⟩
      rw [readWritten, hcode]
      exact readsWithin_cons ih hsuffix
  | case5 a b c d next rest hcode =>
      rw [readWritten, hcode]
      exact .malformed _ _
  | case6 c rest hnot escaped hescaped ih =>
      rw [readWritten, hescaped]
      · exact readsWithin_cons ih ⟨['\\', c], rfl⟩
      · exact hnot
  | case7 rest hnot hescaped =>
      rw [readWritten, hescaped]
      · simp only [if_true]
        exact .malformed _ _
      · exact hnot
  | case8 c rest hnot hescaped hu =>
      rw [readWritten, hescaped]
      · simp only [hu, if_false]
        exact .malformed _ _
      · exact hnot
  | case9 c rest hquote hlast hcode hescape hcontrol =>
      rw [readWritten, if_pos hcontrol]
      · exact .malformed _ _
      all_goals assumption
  | case10 c rest hquote hlast hcode hescape hcontrol ih =>
      rw [readWritten, if_neg hcontrol]
      · exact readsWithin_cons ih (List.suffix_cons c rest)
      all_goals assumption

theorem readsWithin_readString (start cs : List CodePoint) :
    ReadsWithin cs (readString start cs) :=
  (readsWithin_readWritten start cs).map fun _ => rfl

theorem readsWithin_readName (cs : List CodePoint) :
    ReadsWithin cs (readName cs) := by
  unfold readName
  split
  next rest =>
    apply ReadsWithin.bind
      ((readsWithin_readString _ rest).mono (List.suffix_cons _ rest))
    intro name afterName hafter
    dsimp only
    split
    next body hbody =>
      apply ReadsWithin.ok
      exact (skipBlanks_suffix body).trans
        ((suffix_of_skipBlanks_eq_cons hbody).trans hafter)
    next => exact .malformed _ _
  next => exact .malformed _ _

theorem isDigit_of_mem_leadingDigits {cs : List CodePoint} :
    ∀ c ∈ leadingDigits cs, c.isDigit = true := by
  intro c hc
  obtain ⟨p, hp, rfl⟩ := List.mem_map.1 hc
  have hdigit := List.all_eq_true.1 List.all_takeWhile p hp
  cases p with
  | char c => exact hdigit
  | surrogate s => cases hdigit

theorem leadingDigits_append_afterDigits (cs : List CodePoint) :
    ofChars (leadingDigits cs) ++ afterDigits cs = cs := by
  have hleading : ofChars (leadingDigits cs) = cs.takeWhile isDigit := by
    rw [leadingDigits, ofChars, List.map_map,
      List.map_congr_left (g := id), List.map_id]
    intro p hp
    have hdigit := List.all_eq_true.1 List.all_takeWhile p hp
    cases p with
    | char c => rfl
    | surrogate s => cases hdigit
  rw [hleading]
  exact List.takeWhile_append_dropWhile

theorem afterDigits_suffix (cs : List CodePoint) : afterDigits cs <:+ cs :=
  List.dropWhile_suffix isDigit

theorem isDigit_of_mem_splitWhole {cs : List CodePoint} :
    ∀ c ∈ (splitWhole cs).1, c.isDigit = true := by
  unfold splitWhole
  split
  next => simp
  next => exact isDigit_of_mem_leadingDigits

theorem splitMinus_suffix (cs : List CodePoint) :
    (splitMinus cs).2 <:+ cs := by
  unfold splitMinus
  split
  next rest => exact List.suffix_cons _ rest
  next => exact List.suffix_rfl

theorem splitSign_suffix (cs : List CodePoint) : (splitSign cs).2 <:+ cs := by
  unfold splitSign
  split
  next rest => exact List.suffix_cons _ rest
  next => exact splitMinus_suffix cs

theorem splitWhole_append_eq (cs : List CodePoint) :
    ofChars (splitWhole cs).1 ++ (splitWhole cs).2 = cs := by
  unfold splitWhole
  split
  next => rfl
  next => exact leadingDigits_append_afterDigits cs

theorem splitFraction?_suffix (cs : List CodePoint) :
    ((splitFraction? cs).map (·.2)).getD cs <:+ cs := by
  unfold splitFraction?
  split
  next rest =>
    split
    next => exact List.suffix_rfl
    next => exact (afterDigits_suffix rest).trans (List.suffix_cons _ rest)
  next => exact List.suffix_rfl

theorem splitExponent?_suffix (cs : List CodePoint) :
    ((splitExponent? cs).map (·.2)).getD cs <:+ cs := by
  unfold splitExponent?
  split
  next c rest =>
    dsimp only
    split
    next =>
      have hbody := (afterDigits_suffix _).trans (splitSign_suffix rest)
      exact hbody.trans (List.suffix_cons c rest)
    next => exact List.suffix_rfl
  next => exact List.suffix_rfl

theorem holdsDigits_of_integerOfDigits {negative : Bool} {cs : List CodePoint}
    {digits : List Char} {count : Nat} (hblock : ofChars digits <:+: cs)
    (hdigits : ∀ c ∈ digits, c.isDigit = true)
    (h : integerOfDigits negative digits = .error (.tooManyDigits count)) :
    HoldsDigits count cs := by
  unfold integerOfDigits at h
  split at h
  next hlimit =>
    obtain rfl := Fault.tooManyDigits.inj (Except.error.inj h)
    exact ⟨hlimit, digits, hblock, hdigits, rfl⟩
  next => cases h

theorem readsWithin_readNumber (cs : List CodePoint) :
    ReadsWithin cs (readNumber cs) := by
  have hwhole := splitWhole_append_eq (splitMinus cs).2
  have hafter : (splitWhole (splitMinus cs).2).2 <:+ cs :=
    List.IsSuffix.trans ⟨_, hwhole⟩ (splitMinus_suffix cs)
  have hblock : ofChars (splitWhole (splitMinus cs).2).1 <:+: cs :=
    List.IsInfix.trans ⟨[], _, hwhole⟩ (splitMinus_suffix cs).isInfix
  have hrest := (splitExponent?_suffix _).trans
    ((splitFraction?_suffix (splitWhole (splitMinus cs).2).2).trans hafter)
  simp only [readNumber]
  split
  next => exact .malformed _ _
  next =>
    split
    next =>
      constructor
      · intro v rest h
        obtain ⟨value, -, heq⟩ := ok_of_map_eq_ok h
        obtain ⟨-, rfl⟩ := Prod.mk.inj heq
        exact hrest
      · intro count h
        cases hvalue : integerOfDigits (splitMinus cs).1
          (splitWhole (splitMinus cs).2).1 with
        | ok value =>
            rw [hvalue] at h
            cases h
        | error fault =>
            rw [hvalue] at h
            obtain rfl := Except.error.inj h
            exact holdsDigits_of_integerOfDigits hblock
              isDigit_of_mem_splitWhole hvalue
    next => exact .ok _ hrest

theorem readsWithin_readPlain (cs : List CodePoint) :
    ReadsWithin cs (readPlain cs) := by
  unfold readPlain
  split
  next word value hfind => exact .ok value (List.drop_suffix _ _)
  next => exact readsWithin_readNumber cs

end Parts

/-! ## Readers of values -/

structure ReadersStayWithin (fuel : Nat) : Prop where
  value : ∀ cs, ReadsWithin cs (readValue fuel cs)
  object : ∀ cs, ReadsWithin cs (readObject fuel cs)
  members : ∀ cs, ReadsWithin cs (readMembers fuel cs)
  array : ∀ cs, ReadsWithin cs (readArray fuel cs)
  items : ∀ cs, ReadsWithin cs (readItems fuel cs)

theorem readersStayWithin_zero : ReadersStayWithin 0 where
  value cs := by
    rw [readValue]
    exact .malformed _ _
  object cs := by
    unfold readObject
    split
    next rest => exact .ok _ (List.suffix_cons _ rest)
    next => exact .malformed _ _
    next => contradiction
  members cs := by
    rw [readMembers]
    exact .malformed _ _
  array cs := by
    unfold readArray
    split
    next rest => exact .ok _ (List.suffix_cons _ rest)
    next => exact .malformed _ _
    next => contradiction
  items cs := by
    rw [readItems]
    exact .malformed _ _

theorem readersStayWithin_succ {fuel : Nat} (ih : ReadersStayWithin fuel) :
    ReadersStayWithin (fuel + 1) where
  value cs := by
    unfold readValue
    dsimp only
    split
    next rest =>
      refine ReadsWithin.map ?_ fun _ => rfl
      exact (readsWithin_readString _ rest).mono (List.suffix_cons _ rest)
    next rest =>
      exact (ih.object _).mono
        ((skipBlanks_suffix rest).trans (List.suffix_cons _ rest))
    next rest =>
      exact (ih.array _).mono
        ((skipBlanks_suffix rest).trans (List.suffix_cons _ rest))
    next => exact readsWithin_readPlain cs
  object cs := by
    unfold readObject
    split
    next rest => exact .ok _ (List.suffix_cons _ rest)
    next => contradiction
    next heq _ =>
      obtain rfl := Nat.succ.inj heq
      exact (ih.members _).map fun _ => rfl
  members cs := by
    rw [readMembers]
    apply ReadsWithin.bind (readsWithin_readName cs)
    intro name body hbody
    apply ReadsWithin.bind ((ih.value body).mono hbody)
    intro value afterValue hafter
    dsimp only
    split
    next rest hrest =>
      exact .ok _ ((suffix_of_skipBlanks_eq_cons hrest).trans hafter)
    next rest hrest =>
      have hcomma := (skipBlanks_suffix rest).trans
        ((suffix_of_skipBlanks_eq_cons hrest).trans hafter)
      apply ReadsWithin.bind ((ih.members _).mono hcomma)
      intro others last hlast
      exact .ok _ hlast
    next => exact .malformed _ _
  array cs := by
    unfold readArray
    split
    next rest => exact .ok _ (List.suffix_cons _ rest)
    next => contradiction
    next heq _ =>
      obtain rfl := Nat.succ.inj heq
      exact (ih.items _).map fun _ => rfl
  items cs := by
    rw [readItems]
    apply ReadsWithin.bind (ih.value cs)
    intro value afterValue hafter
    dsimp only
    split
    next rest hrest =>
      exact .ok _ ((suffix_of_skipBlanks_eq_cons hrest).trans hafter)
    next rest hrest =>
      have hcomma := (skipBlanks_suffix rest).trans
        ((suffix_of_skipBlanks_eq_cons hrest).trans hafter)
      apply ReadsWithin.bind ((ih.items _).mono hcomma)
      intro others last hlast
      exact .ok _ hlast
    next => exact .malformed _ _

theorem readersStayWithin (fuel : Nat) : ReadersStayWithin fuel := by
  induction fuel with
  | zero => exact readersStayWithin_zero
  | succ fuel ih => exact readersStayWithin_succ ih

end Json
end IndexAccess
