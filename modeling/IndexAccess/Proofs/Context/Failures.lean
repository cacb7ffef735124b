import IndexAccess.Proofs.Context.Standard
import IndexAccess.Proofs.Node.Offenders
import IndexAccess.Proofs.Value.Display

/-!
# Failures of index access

Index access fails in its own ways: a value has no representation, or an index
is refused.  The messages of these failures show a key or an index, and not
everything can be shown: an integer beyond the digit limit cannot, and an
object cannot if its class fails to show it.  There the failure is that of the
part that cannot be shown.  Nothing else fails otherwise, whatever the values
are.
-/

namespace IndexAccess

open ArrayElement

/-- An accessor of array elements that has agreed to read finds the element, or
finds the index inaccessible; such an index is a text, which can always be
shown. -/
theorem ArrayElement.read_of_canRead {target index : Value}
    (h : canRead target index = true) :
    (∃ t, (read target index).outcome = .ok t) ∨
      index.obstacle? = none ∧
        ∃ reason, (read target index).outcome =
          .error (.index (.inaccessible reason)) := by
  obtain ⟨hitems, hindex⟩ := Bool.and_eq_true_iff.1 h
  obtain ⟨items, hitems⟩ := Option.isSome_iff_exists.1 hitems
  rw [read, hitems]
  cases index with
  | integer i => exact .inl ⟨_, rfl⟩
  | text t =>
      have hvalue : digitValue? (.text t) =
          some (Nat.ofDigitChars 10 t.chars 0) :=
        digitValue?_eq_some_iff.2 ⟨t, rfl, hindex, rfl⟩
      rcases Nat.lt_or_ge maxIndex (Nat.ofDigitChars 10 t.chars 0) with
        hlarge | hsmall
      · obtain ⟨reason, hreason⟩ := integerIndex_of_lt hvalue hlarge
        exact .inr ⟨rfl, reason, by rw [hreason]; rfl⟩
      · exact .inl ⟨_, by rw [integerIndex_of_le hvalue hsmall]; rfl⟩
  | _ => cases hindex

namespace Context

/-- The failure of a refusal.  It shows the index, and an index that cannot be
shown makes another failure of it. -/
def refusalFailure (target index : Value) (refuse : RefusalKind)
    (reason : Option String) :
    Failure :=
  match index.obstacle? with
  | none =>
    .index (refuse ⟨target.classOf, index, index.shown,
      reason⟩ (reason.map .inaccessible))
  | some obstacle => .value obstacle

section Refusals

variable (target index : Value)

theorem refuseAll_outcome {α : Type} (refuse : RefusalKind) :
    (refuseAll target index refuse : Run α).outcome =
      .error (refusalFailure target index refuse none) := by
  rw [refusalFailure]
  cases h : index.obstacle? with
  | none =>
      exact congrArg Run.outcome
        (refuseAll_of_display (Value.display_of_no_obstacle h) refuse)
  | some obstacle =>
      rw [refuseAll, refusal, Value.display_of_obstacle h]
      rfl

theorem writeIndex_onlyElements (value : Value) :
    (onlyElements.writeIndex target index value).outcome =
      (refuseAll target index .notWritable : Run Unit).outcome := by
  rw [writeIndex_eq_run, candidates_onlyElements, Trial.run_of_unwilling]
  · rfl
  · intro a ha
    split at ha
    next =>
      rw [List.mem_singleton.1 ha]
      rfl
    next => cases ha

/-- Reading in a standard context succeeds, or refuses an index that can be
shown, or does not get to its refusal. -/
theorem readIndex_onlyElements_cases :
    (∃ t, (onlyElements.readIndex target index).outcome = .ok t) ∨
      (index.obstacle? = none ∧
        ∃ reason, (onlyElements.readIndex target index).outcome =
        .error (.index (.notReadable ⟨target.classOf, index,
          index.shown, reason⟩
          (reason.map .inaccessible)))) ∨
      ∃ obstacle, index.obstacle? = some obstacle ∧
        canRead target index = false ∧
        (onlyElements.readIndex target index).outcome =
          .error (.value obstacle) := by
  rw [readIndex_onlyElements]
  cases hcan : canRead target index with
  | true =>
      rw [if_pos rfl]
      rcases read_of_canRead hcan with ⟨t, ht⟩ | ⟨hshown, reason, hreason⟩
      · exact .inl ⟨t, by rw [ht]; rfl⟩
      · refine .inr (.inl ⟨hshown, some reason, ?_⟩)
        rw [hreason, mapError_passOn (Value.display_of_no_obstacle hshown)]
        rfl
  | false =>
      rw [if_neg Bool.false_ne_true, refuseAll_outcome, refusalFailure]
      cases h : index.obstacle? with
      | none => exact .inr (.inl ⟨rfl, none, rfl⟩)
      | some obstacle => exact .inr (.inr ⟨obstacle, rfl, rfl, rfl⟩)

end Refusals

/-- Turning a value into a node fails because the value has no representation,
and a standard context fails to read or to write because it refuses the index,
unless a key or the index cannot be shown.  The failure is then that of the
part that cannot be shown, an integer too long or an object whose class fails
to show it, and nothing fails in any other way. -/
theorem failures_belong_to_access_if_shown (v target index value : Value) :
    ((∃ n, Node.ofValue v = .ok n) ∨
      (∃ fault, Node.ofValue v = .error (.index (.unrepresentable fault))) ∨
      ∃ key later obstacle, v.offenders = .key key :: later ∧
        key.obstacle? = some obstacle ∧ key.HasObstacle obstacle ∧
        Node.ofValue v = .error (.value obstacle)) ∧
    ∃ c : Context, standard.outcome = .ok c ∧
      ((∃ t, (c.readIndex target index).outcome = .ok t) ∨
        (index.obstacle? = none ∧
          ∃ reason, (c.readIndex target index).outcome =
          .error (.index (.notReadable ⟨target.classOf, index,
            index.shown, reason⟩
            (reason.map .inaccessible)))) ∨
        ∃ obstacle, index.obstacle? = some obstacle ∧
          canRead target index = false ∧
          (c.readIndex target index).outcome = .error (.value obstacle)) ∧
      (c.writeIndex target index value).outcome =
        .error (match index.obstacle? with
          | none =>
            .index (.notWritable ⟨target.classOf, index,
              index.shown, none⟩ none)
          | some obstacle => .value obstacle) ∧
      ∀ obstacle, index.obstacle? = some obstacle →
        index.HasObstacle obstacle := by
  constructor
  · rcases Node.ofValue_cases v with
      ⟨-, hnode⟩ | ⟨first, later, hoffenders, herror⟩
    · exact .inl hnode
    · rw [herror]
      rcases first.failure_cases with
        ⟨fault, hfault⟩ | ⟨key, obstacle, rfl, hkey, hfailure⟩
      · exact .inr (.inl ⟨fault, by rw [hfault]⟩)
      · exact .inr (.inr ⟨key, later, obstacle, hoffenders, hkey,
          key.hasObstacle_of_obstacle? hkey, by rw [hfailure]⟩)
  · refine ⟨onlyElements, standard_outcome,
      readIndex_onlyElements_cases target index, ?_, fun _ =>
        index.hasObstacle_of_obstacle?⟩
    rw [writeIndex_onlyElements, refuseAll_outcome, refusalFailure]
    rfl

/-- An integer of one digit more than the limit is refused as an index neither
of reading nor of writing, and as a key it has no failure of representation. -/
theorem long_integer_not_refused :
    let long : Value := .integer (10 ^ Number.digitLimit)
    (∃ c : Context, standard.outcome = .ok c ∧
      (c.readIndex .null long).outcome = .error (.value .integerTooLong) ∧
      (c.writeIndex .null long .null).outcome =
        .error (.value .integerTooLong)) ∧
    Node.ofValue (.dict [(long, .null)]) =
      .error (.value .integerTooLong) := by
  intro long
  have hlong : long.obstacle? = some .integerTooLong := by
    simp [long, Value.obstacle?, Number.isWritable, Int.natAbs_pow]
  have hcan : canRead .null long = false := rfl
  have hdisplay := Value.display_of_obstacle hlong
  refine ⟨⟨onlyElements, standard_outcome, ?_, ?_⟩, ?_⟩
  · rw [readIndex_onlyElements, hcan, if_neg Bool.false_ne_true, refuseAll,
      refusal, hdisplay]
    rfl
  · rw [writeIndex_onlyElements, refuseAll, refusal, hdisplay]
    rfl
  · rw [Node.ofValue, Node.ofEntries, Node.fieldName, hdisplay]
    · rfl
    · intro t heq
      simp [long] at heq

end Context
end IndexAccess
