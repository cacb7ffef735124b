import IndexAccess.Proofs.Json.DigitLimit
import IndexAccess.Proofs.Path.Walk

/-!
# Reading a document always answers, but for too many digits

Reading indexes from a document turns every failure of index access into a
failed result, and so it does with a malformed document.  The one failure that
it lets through is that of a document with an integer of too many digits.  A
document without so many digits in a row is answered, whatever else it holds.
-/

namespace IndexAccess
namespace Feature

section Answers

variable {document : Text} {indexes : List Value}

theorem readDocument_of_malformed {kind : Json.FaultKind}
    {rest : List CodePoint}
    (h : Json.readDocument document = .error (.malformed kind rest)) :
    (readDocument Context.standard document indexes).outcome =
      .ok (.fail
        s!"Invalid JSON document: {Json.faultMessage document kind rest}") := by
  rw [readDocument, h]
  rfl

theorem readDocument_of_tooManyDigits {count : Nat}
    (h : Json.readDocument document = .error (.tooManyDigits count)) :
    (readDocument Context.standard document indexes).outcome =
      .error (.value (.tooManyDigits count)) := by
  rw [readDocument, h]
  rfl

/-- A document that is read into a value is answered, whether or not the value
has a node and the indexes can be followed. -/
theorem readDocument_isOk {root : Value}
    (hindexes : ∀ index ∈ indexes, Path.isStep index = true)
    (hroot : Json.readDocument document = .ok root) :
    ∃ result, (readDocument Context.standard document indexes).outcome =
      .ok result := by
  cases hn : Node.ofValue root with
  | error failure => exact ⟨_, Path.readDocument_of_ofValue_error hroot hn⟩
  | ok n =>
      cases hwalk : Path.walk n.native indexes with
      | some v => exact ⟨_, Path.readDocument_of_walk hroot hn hwalk⟩
      | none =>
          obtain ⟨failure, hfailure⟩ :=
            Path.follow_root_of_walk_eq_none hindexes hwalk
          rw [Path.readDocument_outcome hroot hn]
          exact ⟨_, Path.settle_outcome_error hfailure⟩

theorem readDocument_outcome_error_iff (document : Text)
    (hindexes : ∀ index ∈ indexes, Path.isStep index = true)
    (failure : Failure) :
    (readDocument Context.standard document indexes).outcome = .error failure ↔
      ∃ count, failure = .value (.tooManyDigits count) ∧
        Json.readDocument document = .error (.tooManyDigits count) := by
  constructor
  · intro h
    cases hread : Json.readDocument document with
    | ok root =>
        obtain ⟨result, hresult⟩ := readDocument_isOk hindexes hread
        rw [hresult] at h
        cases h
    | error fault =>
        cases fault with
        | malformed kind rest =>
            rw [readDocument_of_malformed hread] at h
            cases h
        | tooManyDigits count =>
            rw [readDocument_of_tooManyDigits hread] at h
            exact ⟨count, (Except.error.inj h).symm, rfl⟩
  · rintro ⟨count, rfl, hread⟩
    exact readDocument_of_tooManyDigits hread

end Answers

/-- With texts for indexes, reading a document fails, without a result, exactly
if the reader of documents finds an integer with too many digits; and so it
answers every document that has no more digits in a row than the limit. -/
theorem readDocument_answers_within_digitLimit (document : Text)
    (indexes : List Text) :
    (∀ failure,
      (readDocument Context.standard document (indexes.map .text)).outcome =
        .error failure ↔
        ∃ count, failure = .value (.tooManyDigits count) ∧
          Json.readDocument document = .error (.tooManyDigits count)) ∧
    ((∀ digits : List Char, CodePoint.ofChars digits <:+: document.points →
        (∀ c ∈ digits, c.isDigit = true) → digits.length ≤ Number.digitLimit) →
      ∃ result,
        (readDocument Context.standard document (indexes.map .text)).outcome =
          .ok result) := by
  have hfailures := readDocument_outcome_error_iff document
    (Path.isStep_of_mem_map_text id indexes)
  constructor
  · exact hfailures
  · intro hshort
    cases houtcome :
        (readDocument Context.standard document
          (indexes.map .text)).outcome with
    | ok result => exact ⟨result, rfl⟩
    | error failure =>
        obtain ⟨count, -, hread⟩ := (hfailures failure).1 houtcome
        obtain ⟨hlimit, digits, hblock, hdigits, hlength⟩ :=
          Json.holdsDigits_of_readDocument hread
        have hle := hshort digits hblock hdigits
        omega

/-- A document of one digit more than the limit is not answered. -/
theorem readDocument_not_answered_of_long_integer :
    (readDocument Context.standard
      ⟨CodePoint.ofChars (List.replicate (Number.digitLimit + 1) '1')⟩
        []).outcome =
        .error (.value (.tooManyDigits 4301)) := by
  have hwhole : Json.IsWhole (List.replicate (Number.digitLimit + 1) '1') := by
    refine ⟨?_, .inr ⟨'1', List.replicate Number.digitLimit '1',
      List.replicate_succ, by decide⟩⟩
    intro c hc
    rw [List.eq_of_mem_replicate hc]
    rfl
  apply readDocument_of_tooManyDigits
  rw [Json.readDocument_of_digitLimit_lt
    hwhole (by rw [List.length_replicate]; omega), List.length_replicate]
  rfl

end Feature
end IndexAccess
