import IndexAccess.Proofs.Path.Walk

/-!
# The kind of an answered value

An answer carries a value and a kind that tells the shape of the value.  Every
element that a step reads is tagged by its shape, so the kind of an answer is
right as soon as one index has been followed, whatever the indexes are.  The
root of a document is taken for a node without a look at it, so that a document
that is a mere scalar or null, read without indexes, is answered with a kind
that belongs to a container.
-/

namespace IndexAccess
namespace Path

def IsContainer (v : Value) : Prop :=
  (∃ items, v = .list items) ∨ ∃ entries, v = .dict entries

def IsScalar (v : Value) : Prop :=
  (∃ t, v = .text t) ∨ (∃ i, v = .integer i) ∨
    (∃ x, v = .number x) ∨ ∃ b, v = .boolean b

structure KindAgrees (kind : String) (v : Value) : Prop where
  null_iff : kind = "null" ↔ v = .null
  node_iff : kind = "node" ↔ IsContainer v
  scalar_iff : kind = "scalar" ↔ IsScalar v

theorem kindAgrees_ofElement (n : Node) :
    KindAgrees (TypedValue.ofElement (some n)).kind
      (TypedValue.ofElement (some n)).native := by
  rw [kind_ofElement, native_ofElement]
  constructor <;> cases n <;> simp [kindOf, Node.native, IsContainer, IsScalar]

theorem kindAgrees_root_iff (n : Node) :
    KindAgrees (TypedValue.node (.node n)).kind
      (TypedValue.node (.node n)).native ↔
      IsContainer n.native := by
  constructor
  · intro h
    exact h.node_iff.1 rfl
  · rintro (⟨items, hitems⟩ | ⟨entries, hentries⟩)
    · constructor <;>
        simp [TypedValue.kind, TypedValue.native, TypedValue.node,
          ValueKind.text, IsContainer, IsScalar, hitems]
    · constructor <;>
        simp [TypedValue.kind, TypedValue.native, TypedValue.node,
          ValueKind.text, IsContainer, IsScalar, hentries]

section Steps

variable {target index : Value} {t : TypedValue}

theorem refuseAll_outcome_ne_ok {α : Type} (a : α) (refuse : RefusalKind) :
    (Context.refuseAll target index refuse : Run α).outcome ≠ .ok a := by
  unfold Context.refuseAll
  cases Context.refusal target index none <;> exact nofun

/-- Whatever a step reads is an element, possibly the null of an absent one. -/
theorem ofElement_of_readIndex
    (h : (Context.onlyElements.readIndex target index).outcome = .ok t) :
    ∃ n : Node, t = TypedValue.ofElement (some n) := by
  rw [Context.readIndex_onlyElements] at h
  by_cases hcan : ArrayElement.canRead target index = true
  · rw [if_pos hcan, ArrayElement.read] at h
    cases hitems : ArrayElement.items? target with
    | none =>
        rw [hitems] at h
        cases h
    | some items =>
        cases hindex : ArrayElement.integerIndex index with
        | error failure =>
            simp only [hitems, hindex] at h
            cases h
        | ok position =>
            simp only [hitems, hindex] at h
            obtain rfl := Except.ok.inj h
            exact ⟨_, ofElement_itemOrNullNode items position⟩
  · rw [if_neg hcan] at h
    exact absurd h (refuseAll_outcome_ne_ok t _)

theorem readIndex_of_follow_cons {c : Context} {step : Nat}
    {current : TypedValue} {rest : List Value}
    (h : (follow c step current (index :: rest)).outcome = .ok t) :
    ∃ next, (c.readIndex current.value index).outcome = .ok next ∧
      (follow c (step + 1) next rest).outcome = .ok t := by
  cases hnull : current.isNull with
  | true =>
      obtain ⟨failure, hfailure⟩ :=
        stopAtNull_outcome (α := TypedValue) step index
      rw [follow, if_pos hnull, hfailure] at h
      cases h
  | false =>
      rw [follow_cons_outcome _ _ _ _ hnull] at h
      exact ok_of_bind_eq_ok h

/-- A path ends where it begins only if it has no indexes; otherwise it ends on
an element. -/
theorem ofElement_of_follow {step : Nat} {current : TypedValue}
    {indexes : List Value}
    (h : (follow .onlyElements step current indexes).outcome = .ok t) :
    (indexes = [] ∧ t = current) ∨
      (indexes ≠ [] ∧ ∃ n : Node, t = TypedValue.ofElement (some n)) := by
  induction indexes generalizing step current with
  | nil => exact .inl ⟨rfl, (Except.ok.inj h).symm⟩
  | cons index rest ih =>
      obtain ⟨next, hread, hrest⟩ := readIndex_of_follow_cons h
      -- The last index has been read if the rest is empty, and otherwise the
      -- rest ends on an element.
      refine .inr ⟨List.cons_ne_nil index rest, ?_⟩
      rcases ih hrest with ⟨-, rfl⟩ | ⟨-, helement⟩
      · exact ofElement_of_readIndex hread
      · exact helement

end Steps

/-- The kind of a successful answer tells the shape of the value, except in one
case: without indexes the kind is that of a node, and a document that is no
container is answered with it too. -/
theorem kind_agrees_unless_leaf_root (document : Text) (indexes : List Value)
    (result : Result)
    (hanswer : (Feature.readDocument Context.standard document
      indexes).outcome = .ok result)
    (hsuccess : result.success = true) :
    ∃ (kind : String) (value : Value),
      result = .ok (Feature.record [("kind", .text kind), ("value", value)]) ∧
      (KindAgrees kind value ↔ indexes ≠ [] ∨ IsContainer value) ∧
      (indexes = [] → kind = "node") := by
  obtain ⟨root, n, t, -, -, hfollow, hresult⟩ :=
    follow_of_readDocument hanswer hsuccess
  refine ⟨t.kind, t.native, hresult, ?_⟩
  rcases ofElement_of_follow hfollow with ⟨hnil, rfl⟩ | ⟨hcons, m, rfl⟩
  · refine ⟨?_, fun _ => rfl⟩
    rw [kindAgrees_root_iff]
    simp only [hnil, ne_eq, not_true_eq_false, false_or]
    rfl
  · exact ⟨iff_of_true (kindAgrees_ofElement m) (.inl hcons),
      fun hnil => absurd hnil hcons⟩

theorem kind_agrees_at_null_element :
    (Feature.readDocument Context.standard "[null]" [.text "0"]).outcome =
        .ok (.ok (Feature.record [("kind", .text "null"), ("value", .null)])) ∧
      KindAgrees "null" .null := by
  have hroot : Json.readDocument "[null]" = .ok (.list [.null]) := by cbv
  have hn : Node.ofValue (.list [.null]) = .ok (.array .plain none [.null]) :=
    rfl
  have hwalk : walk (Node.array .plain none [.null]).native [.text "0"] =
      some .null := rfl
  have hkind : answeredKind [.text "0"] .null = "null" := rfl
  have hanswer := readDocument_of_walk hroot hn hwalk
  rw [hkind] at hanswer
  refine ⟨hanswer, ?_⟩
  obtain ⟨kind, value, hresult, hagrees, -⟩ :=
    kind_agrees_unless_leaf_root _ _ _ hanswer rfl
  obtain ⟨hname, hvalue⟩ :
      Text.ofString "null" = Text.ofString kind ∧ Value.null = value := by
    simpa [Result.ok, Feature.record] using hresult
  rw [Text.ofString_injective hname, hvalue]
  exact hagrees.2 (.inl (List.cons_ne_nil _ _))

theorem root_null_answered_as_node :
    (Feature.readDocument Context.standard "null" []).outcome =
        .ok (.ok (Feature.record [("kind", .text "node"), ("value", .null)])) ∧
      ¬ KindAgrees "node" .null := by
  have hroot : Json.readDocument "null" = .ok .null := by cbv
  constructor
  · exact readDocument_of_walk (n := .null) hroot rfl rfl
  · intro h
    exact absurd (h.null_iff.2 rfl) (by decide)

end Path
end IndexAccess
