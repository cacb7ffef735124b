import IndexAccess.Proofs.Entries
import IndexAccess.Proofs.Json.Suffixes
import IndexAccess.Proofs.Number.Digits
import IndexAccess.Proofs.Text.Surrogates

/-!
# The values that documents hold

A document is read into a value built from null, truth values, integers within
the digit limit, numbers, texts, lists and dictionaries with different texts as
keys.  Where the document is a string, no two surrogates of one of these texts
could be read as one code point.  The predicate below says so, and every reader
of a part of a document is shown to establish it.
-/

namespace IndexAccess
namespace Json

/-- A dictionary with texts as keys. -/
def dictValue (fields : List (Text × Value)) : Value :=
  .dict (fields.map fun (name, value) => (.text name, value))

/-- A value that a document may hold, with texts and names that satisfy `T`. -/
inductive IsDocument (T : Text → Prop) : Value → Prop
  | null : IsDocument T .null
  | boolean (b : Bool) : IsDocument T (.boolean b)
  | integer {i : Int}
    (writable : Number.isWritable i = true) : IsDocument T (.integer i)
  | number (x : Binary64) : IsDocument T (.number x)
  | text {t : Text} (holds : T t) : IsDocument T (.text t)
  | list {items : List Value}
    (items_document : ∀ item ∈ items, IsDocument T item) :
      IsDocument T (.list items)
  | dict {fields : List (Text × Value)}
    (keys_nodup : (Entries.keys fields).Nodup)
      (names_hold : ∀ name value, (name, value) ∈ fields → T name)
      (values_document : ∀ name value, (name, value) ∈ fields →
        IsDocument T value) :
      IsDocument T (dictValue fields)

variable {T : Text → Prop}

theorem IsDocument.items {items : List Value}
    (h : IsDocument T (.list items)) :
    ∀ item ∈ items, IsDocument T item := by
  generalize hv : Value.list items = v at h
  cases h with
  | list hitems =>
      obtain rfl := Value.list.inj hv
      exact hitems
  | dict => cases hv
  | _ => cases hv

/-- The members of an object that may stand in a document. -/
def MembersDocument (T : Text → Prop) (members : List (Text × Value)) : Prop :=
  ∀ name value, (name, value) ∈ members → T name ∧ IsDocument T value

theorem isDocument_dictOf {members : List (Text × Value)}
    (h : MembersDocument T members) :
    IsDocument T (dictOf members) := by
  have hparts := Entries.forall_mem_ofList h
  exact .dict (Entries.nodup_keys_ofList members)
    (fun name value hmem => (hparts name value hmem).1)
    (fun name value hmem => (hparts name value hmem).2)

/-- Every string that is read from a part of a document is a text that
satisfies `T`. -/
def ReadsTexts (T : Text → Prop) (document : List CodePoint) : Prop :=
  ∀ start cs t rest, cs <:+ document →
    readString start cs = .ok (t, rest) → T t

theorem readsTexts_true (document : List CodePoint) :
    ReadsTexts (fun _ => True) document :=
  fun _ _ _ _ _ _ => trivial

/-! ## Names and plain values -/

section Parts

variable {document cs rest : List CodePoint} {v : Value}

theorem isWritable_withSign (negative : Bool) (magnitude : Nat) :
    Number.isWritable (Number.withSign negative magnitude) =
      decide (magnitude < 10 ^ Number.digitLimit) := by
  cases negative <;> simp [Number.isWritable, Number.withSign]

theorem isDocument_of_integerOfDigits {negative : Bool} {digits : List Char}
    (hdigits : ∀ c ∈ digits, c.isDigit = true)
    (h : integerOfDigits negative digits = .ok v) : IsDocument T v := by
  unfold integerOfDigits at h
  split at h
  next => cases h
  next hlimit =>
    obtain rfl := Except.ok.inj h
    have hvalue : Nat.ofDigitChars 10 digits 0 < 10 ^ Number.digitLimit :=
      (Number.ofDigitChars_lt hdigits).trans_le
        (Nat.pow_le_pow_right (by decide) (Nat.not_lt.1 hlimit))
    apply IsDocument.integer
    rw [isWritable_withSign]
    exact decide_eq_true hvalue

theorem isDocument_of_readNumber (h : readNumber cs = .ok (v, rest)) :
    IsDocument T v := by
  simp only [readNumber] at h
  split at h
  next => cases h
  next =>
    split at h
    next =>
      obtain ⟨value, hvalue, heq⟩ := ok_of_map_eq_ok h
      obtain ⟨rfl, -⟩ := Prod.mk.inj heq
      exact isDocument_of_integerOfDigits isDigit_of_mem_splitWhole hvalue
    next =>
      obtain ⟨rfl, -⟩ := Prod.mk.inj (Except.ok.inj h)
      exact .number _

theorem isDocument_of_mem_words : ∀ word ∈ words, IsDocument T word.2 := by
  intro word hword
  simp only [words, List.mem_cons, List.not_mem_nil, or_false] at hword
  rcases hword with rfl | rfl | rfl | rfl | rfl | rfl
  · exact .null
  · exact .boolean true
  · exact .boolean false
  · exact .number .nan
  · exact .number (.infinite false)
  · exact .number (.infinite true)

theorem isDocument_of_readPlain (h : readPlain cs = .ok (v, rest)) :
    IsDocument T v := by
  unfold readPlain at h
  split at h
  next word value hfind =>
    obtain ⟨rfl, -⟩ := Prod.mk.inj (Except.ok.inj h)
    exact isDocument_of_mem_words _ (List.mem_of_find?_eq_some hfind)
  next => exact isDocument_of_readNumber h

theorem holds_of_readName {body : List CodePoint} {name : Text}
    (hT : ReadsTexts T document) (hcs : cs <:+ document)
    (h : readName cs = .ok (name, body)) : T name := by
  unfold readName at h
  split at h
  next rest =>
    obtain ⟨⟨t, afterName⟩, hstring, hrest⟩ := ok_of_bind_eq_ok h
    dsimp only at hrest
    split at hrest
    next =>
      obtain ⟨rfl, -⟩ := Prod.mk.inj (Except.ok.inj hrest)
      exact hT _ _ _ _ ((List.suffix_cons _ rest).trans hcs) hstring
    next => cases hrest
  next => cases h

end Parts

/-- What the five readers establish with a given fuel, inside a document. -/
structure ReadsDocuments (T : Text → Prop) (document : List CodePoint)
    (fuel : Nat) : Prop where
  value : ∀ cs v rest, cs <:+ document → readValue fuel cs = .ok (v, rest) →
    IsDocument T v
  object : ∀ cs v rest, cs <:+ document → readObject fuel cs = .ok (v, rest) →
    IsDocument T v
  members : ∀ cs ms rest, cs <:+ document →
    readMembers fuel cs = .ok (ms, rest) →
    MembersDocument T ms
  array : ∀ cs v rest, cs <:+ document → readArray fuel cs = .ok (v, rest) →
    IsDocument T v
  items : ∀ cs vs rest, cs <:+ document → readItems fuel cs = .ok (vs, rest) →
    ∀ v ∈ vs, IsDocument T v

theorem isDocument_emptyObject : IsDocument T (dictOf []) :=
  isDocument_dictOf (by simp [MembersDocument])

theorem isDocument_emptyList : IsDocument T (.list []) :=
  .list (by simp)

theorem readsDocuments_zero (document : List CodePoint) :
    ReadsDocuments T document 0 where
  value cs v rest hcs h := by simp [readValue] at h
  object cs v rest hcs h := by
    unfold readObject at h
    split at h
    next =>
      obtain ⟨rfl, -⟩ := Prod.mk.inj (Except.ok.inj h)
      exact isDocument_emptyObject
    next => cases h
    next => contradiction
  members cs ms rest hcs h := by simp [readMembers] at h
  array cs v rest hcs h := by
    unfold readArray at h
    split at h
    next =>
      obtain ⟨rfl, -⟩ := Prod.mk.inj (Except.ok.inj h)
      exact isDocument_emptyList
    next => cases h
    next => contradiction
  items cs vs rest hcs h := by simp [readItems] at h

theorem readsDocuments_succ {document : List CodePoint}
    (hT : ReadsTexts T document)
    {fuel : Nat} (ih : ReadsDocuments T document fuel) :
    ReadsDocuments T document (fuel + 1) where
  value cs v rest hcs h := by
    unfold readValue at h
    dsimp only at h
    split at h
    next body =>
      obtain ⟨⟨t, after⟩, hstring, heq⟩ := ok_of_map_eq_ok h
      obtain ⟨rfl, -⟩ := Prod.mk.inj heq
      exact .text (hT _ _ _ _ ((List.suffix_cons _ body).trans hcs) hstring)
    next body =>
      exact ih.object _ _ _
        ((skipBlanks_suffix body).trans
          ((List.suffix_cons _ body).trans hcs)) h
    next body =>
      exact ih.array _ _ _
        ((skipBlanks_suffix body).trans
          ((List.suffix_cons _ body).trans hcs)) h
    next => exact isDocument_of_readPlain h
  object cs v rest hcs h := by
    unfold readObject at h
    split at h
    next =>
      obtain ⟨rfl, -⟩ := Prod.mk.inj (Except.ok.inj h)
      exact isDocument_emptyObject
    next => contradiction
    next heq _ =>
      obtain rfl := Nat.succ.inj heq
      obtain ⟨⟨ms, after⟩, hmembers, heq⟩ := ok_of_map_eq_ok h
      obtain ⟨rfl, -⟩ := Prod.mk.inj heq
      exact isDocument_dictOf (ih.members _ _ _ hcs hmembers)
  members cs ms rest hcs h := by
    rw [readMembers] at h
    obtain ⟨⟨name, body⟩, hname, h⟩ := ok_of_bind_eq_ok h
    obtain ⟨⟨value, after⟩, hvalue, h⟩ := ok_of_bind_eq_ok h
    have hbody := ((readsWithin_readName cs).rest_suffix _ _ hname).trans hcs
    have hafter := (((readersStayWithin fuel).value body).rest_suffix _ _
      hvalue).trans hbody
    have hfirst : T name ∧ IsDocument T value :=
      ⟨holds_of_readName hT hcs hname, ih.value _ _ _ hbody hvalue⟩
    dsimp only at h
    split at h
    next =>
      obtain ⟨rfl, -⟩ := Prod.mk.inj (Except.ok.inj h)
      intro n v hmem
      obtain ⟨rfl, rfl⟩ := Prod.mk.inj (List.mem_singleton.1 hmem)
      exact hfirst
    next next hcomma =>
      obtain ⟨⟨others, last⟩, hothers, h⟩ := ok_of_bind_eq_ok h
      obtain ⟨rfl, -⟩ := Prod.mk.inj (Except.ok.inj h)
      have hnext := (skipBlanks_suffix next).trans
        ((suffix_of_skipBlanks_eq_cons hcomma).trans hafter)
      intro n v hmem
      rcases List.mem_cons.1 hmem with heq | hmem
      · obtain ⟨rfl, rfl⟩ := Prod.mk.inj heq
        exact hfirst
      · exact ih.members _ _ _ hnext hothers n v hmem
    next => cases h
  array cs v rest hcs h := by
    unfold readArray at h
    split at h
    next =>
      obtain ⟨rfl, -⟩ := Prod.mk.inj (Except.ok.inj h)
      exact isDocument_emptyList
    next => contradiction
    next heq _ =>
      obtain rfl := Nat.succ.inj heq
      obtain ⟨⟨vs, after⟩, hitems, heq⟩ := ok_of_map_eq_ok h
      obtain ⟨rfl, -⟩ := Prod.mk.inj heq
      exact .list (ih.items _ _ _ hcs hitems)
  items cs vs rest hcs h := by
    rw [readItems] at h
    obtain ⟨⟨value, after⟩, hvalue, h⟩ := ok_of_bind_eq_ok h
    have hafter := (((readersStayWithin fuel).value cs).rest_suffix _ _
      hvalue).trans hcs
    have hfirst : IsDocument T value := ih.value _ _ _ hcs hvalue
    dsimp only at h
    split at h
    next =>
      obtain ⟨rfl, -⟩ := Prod.mk.inj (Except.ok.inj h)
      exact fun v hmem => List.mem_singleton.1 hmem ▸ hfirst
    next next hcomma =>
      obtain ⟨⟨others, last⟩, hothers, h⟩ := ok_of_bind_eq_ok h
      obtain ⟨rfl, -⟩ := Prod.mk.inj (Except.ok.inj h)
      have hnext := (skipBlanks_suffix next).trans
        ((suffix_of_skipBlanks_eq_cons hcomma).trans hafter)
      intro v hmem
      rcases List.mem_cons.1 hmem with rfl | hmem
      · exact hfirst
      · exact ih.items _ _ _ hnext hothers v hmem
    next => cases h

theorem readsDocuments {document : List CodePoint} (hT : ReadsTexts T document)
    (fuel : Nat) :
    ReadsDocuments T document fuel := by
  induction fuel with
  | zero => exact readsDocuments_zero document
  | succ fuel ih => exact readsDocuments_succ hT ih

theorem isDocument_of_readsTexts {document : Text} {v : Value}
    (hT : ReadsTexts T document.points) (h : readDocument document = .ok v) :
    IsDocument T v := by
  unfold readDocument at h
  split at h
  next => cases h
  next =>
    obtain ⟨⟨value, rest⟩, hvalue, h⟩ := ok_of_bind_eq_ok h
    dsimp only at h
    split at h
    next =>
      obtain rfl := Except.ok.inj h
      exact (readsDocuments hT _).value _ _ _ (skipBlanks_suffix _) hvalue
    next => cases h

/-- Whatever a document is read into is a value that documents hold. -/
theorem isDocument_of_readDocument {document : Text} {v : Value}
    (h : readDocument document = .ok v) : IsDocument (fun _ => True) v :=
  isDocument_of_readsTexts (readsTexts_true _) h

/-! ## Documents that are strings -/

section Strings

variable {first : Text.Written} {written : List Text.Written}
  {start cs rest : List CodePoint}

theorem exists_of_cons_eq_ok {reading : Reading (List Text.Written)}
    (h : Reading.cons first reading = .ok (written, rest)) :
    ∃ others, reading = .ok (others, rest) ∧ written = first :: others := by
  obtain ⟨⟨others, after⟩, hreading, heq⟩ := ok_of_map_eq_ok h
  obtain ⟨rfl, rfl⟩ := Prod.mk.inj heq
  exact ⟨others, hreading, rfl⟩

theorem eq_surrogate_of_writtenAs {p : CodePoint} {s : Surrogate}
    (h : .alone s = writtenAs p) : p = .surrogate s := by
  cases p with
  | char c => cases h
  | surrogate other => rw [Text.Written.alone.inj h]

/-- Only a surrogate that stands in the text is written as itself. -/
theorem mem_of_alone_mem_readWritten {s : Surrogate}
    (h : readWritten start cs = .ok (written, rest))
    (hs : .alone s ∈ written) :
    .surrogate s ∈ cs := by
  induction cs using readWritten.induct generalizing written with
  | case1 => simp [readWritten] at h
  | case2 => simp_all [readWritten]
  | case3 => simp [readWritten] at h
  | case4 a b c d next rest code hcode ih =>
      rw [readWritten, hcode] at h
      obtain ⟨others, hothers, rfl⟩ := exists_of_cons_eq_ok h
      have hmem := ih hothers (by simpa using hs)
      exact List.mem_of_mem_drop (i := 6) hmem
  | case5 a b c d next rest hcode =>
      rw [readWritten, hcode] at h
      cases h
  | case6 c rest hnot escaped hescaped ih =>
      rw [readWritten, hescaped] at h
      · obtain ⟨others, hothers, rfl⟩ := exists_of_cons_eq_ok h
        have hmem := ih hothers (by simpa using hs)
        exact List.mem_of_mem_drop (i := 2) hmem
      · exact hnot
  | case7 rest hnot hescaped =>
      rw [readWritten, hescaped] at h
      · simp at h
      · exact hnot
  | case8 c rest hnot hescaped hu =>
      rw [readWritten, hescaped] at h
      · simp [hu] at h
      · exact hnot
  | case9 c rest hquote hlast hcode hescape hcontrol =>
      rw [readWritten, if_pos hcontrol] at h
      · cases h
      all_goals assumption
  | case10 c rest hquote hlast hcode hescape hcontrol ih =>
      rw [readWritten, if_neg hcontrol] at h
      · obtain ⟨others, hothers, rfl⟩ := exists_of_cons_eq_ok h
        rcases List.mem_cons.1 hs with hfirst | hmem
        · exact eq_surrogate_of_writtenAs hfirst ▸ List.mem_cons_self
        · exact List.mem_cons_of_mem c (ih hothers hmem)
      all_goals assumption

/-- In a document that is a string, no surrogates are left that would be read
as one code point. -/
theorem readsTexts_paired (document : String) :
    ReadsTexts Text.Paired (Text.ofString document).points := by
  intro start cs t rest hcs h
  obtain ⟨⟨written, after⟩, hwritten, heq⟩ := ok_of_map_eq_ok h
  obtain ⟨rfl, -⟩ := Prod.mk.inj heq
  apply Text.paired_ofWritten
  intro s hs
  have hmem := hcs.subset (mem_of_alone_mem_readWritten hwritten hs)
  obtain ⟨c, -, hc⟩ := List.mem_map.1 hmem
  cases hc

end Strings

end Json
end IndexAccess
