import IndexAccess.Proofs.Path.Walk
import IndexAccess.Proofs.Value.Equality

/-!
# Reading from equal nodes

Indexes are applied in turn, each to what the one before it has read, up to the
first null or failure.  Two nodes that are equal cannot be told apart in this
way: equal arrays have equal items at every position, what is read of equal
items is equal and of one kind, and whether an index can be read at all depends
on nothing in which equal nodes may differ.

The argument is a simulation of one run by the other.  The targets of two runs
are related if they hold the items of two equal nodes, which one step
preserves.
-/

namespace IndexAccess
namespace Path

open ArrayElement

inductive End where
  | completed
  | null
  | failed (failure : Failure)

/-- What was read before the end. -/
structure Readings where
  values : List TypedValue
  ending : End

/-- Applies the indexes in turn, up to the first null or failure. -/
def readings (c : Context) (target : Value) : List Value → Readings
  | [] => ⟨[], .completed⟩
  | index :: rest =>
    match (c.readIndex target index).outcome with
    | .error failure => ⟨[], .failed failure⟩
    | .ok t =>
      if t.isNull then ⟨[t], .null⟩
      else
        let later := readings c t.value rest
        ⟨t :: later.values, later.ending⟩

/-- What keeps an index from being read. -/
inductive Cause where
  | null
  | unreadable
  | outOfRange
deriving DecidableEq

/-- An index is refused without a reason if nothing can be read under it, and a
text of digits with the reason, and on account of the failure, that the number
it writes is too large. -/
inductive EndsFor : End → Option Cause → Prop
  | completed : EndsFor .completed none
  | null : EndsFor .null (some .null)
  | unreadable {r : Refusal} {raisedFrom : Option IndexFailure}
    (hreason : r.reason = none)
      (hfrom : raisedFrom = none) :
      EndsFor (.failed (.index (.notReadable r raisedFrom))) (some .unreadable)
  | outOfRange {r : Refusal} {raisedFrom : Option IndexFailure}
    {t : Text} {d : Nat}
      (hindex : r.index = .text t) (hvalue : digitValue? r.index = some d)
      (hlarge : 2 ^ 31 - 1 < d)
      (hreason : r.reason =
        some s!"Index string of {t.length} digits is out of integer range")
      (hfrom : raisedFrom = some (outOfRange t)) :
      EndsFor (.failed (.index (.notReadable r raisedFrom))) (some .outOfRange)

/-- An ending has one cause. -/
theorem EndsFor.unique {ending : End} {cause other : Option Cause}
    (h : EndsFor ending cause) (h' : EndsFor ending other) :
    cause = other := by
  cases h with
  | completed | null => cases h'; rfl
  | unreadable hreason =>
      cases h' with
      | unreadable => rfl
      | outOfRange _ _ _ hreason' => simp [hreason] at hreason'
  | outOfRange _ _ _ hreason =>
      cases h' with
      | unreadable hreason' => simp [hreason'] at hreason
      | outOfRange => rfl

/-- What one index makes of two targets: the elements of equal nodes, or two
refusals for one cause. -/
inductive Alike : Except Failure TypedValue → Except Failure TypedValue → Prop
  | element {m n : Node} (h : m.same n = true) :
      Alike (.ok (.ofElement (some m))) (.ok (.ofElement (some n)))
  | refused {failure failure' : Failure} {cause : Cause}
      (h : EndsFor (.failed failure) (some cause))
      (h' : EndsFor (.failed failure') (some cause)) : Alike (.error failure)
        (.error failure')

/-! ## Elements of equal arrays -/

section Elements

variable {m n : Node}

theorem same_value_ofElement (h : m.same n = true) :
    (TypedValue.ofElement (some m)).value.same
      (TypedValue.ofElement (some n)).value = true := by
  cases hleaf : m.isLeaf with
  | true =>
      have hnative := Node.same_native_of_isLeaf hleaf h
      cases m with
      | array | object => cases hleaf
      | _ => cases n <;> exact hnative
  | false =>
      cases m with
      | array | object => cases n <;> exact h
      | _ => cases hleaf

theorem tag_ofElement_eq (h : m.same n = true) :
    (TypedValue.ofElement (some m)).tag =
      (TypedValue.ofElement (some n)).tag := by
  cases m <;> cases n <;> first | rfl | cases h

end Elements

/-! ## One index -/

section Step

variable {a b : Node} {target other index : Value}

theorem items?_of_same (h : a.same b = true) :
    (a.items? = none ∧ b.items? = none) ∨
      ∃ as bs, a.items? = some as ∧ b.items? = some bs ∧
        List.Forall₂ (fun m n => m.same n = true) as bs := by
  cases a with
  | array style cell as =>
      cases b with
      | array style' cell' bs =>
          exact .inr ⟨as, bs, rfl, rfl, Node.sameItems_iff.1 h⟩
      | _ => cases h
  | _ => cases b <;> first | exact .inl ⟨rfl, rfl⟩ | cases h

/-- Equal items stand at every position, and the null of absent ones beyond the
end. -/
theorem same_itemOrNullNode {as bs : List Node}
    (h : List.Forall₂ (fun m n => m.same n = true) as bs) (i : Int) :
    (itemOrNullNode as i).same (itemOrNullNode bs i) = true := by
  unfold itemOrNullNode
  by_cases hi : i < 0
  · rw [Node.itemAt?_of_neg as hi, Node.itemAt?_of_neg bs hi]
    rfl
  · rw [Node.itemAt?_of_nonneg as (Int.not_lt.1 hi),
      Node.itemAt?_of_nonneg bs (Int.not_lt.1 hi)]
    generalize i.toNat = k
    induction h generalizing k with
    | nil => rfl
    | cons hfirst _ ih =>
        cases k with
        | zero => exact hfirst
        | succ k => exact ih k

/-- An index of arrays stands for an integer, or writes a number that is too
large. -/
theorem integerIndex_cases (h : isIndex index = true) :
    (∃ i, integerIndex index = .ok i) ∨
      ∃ t d, index = .text t ∧ digitValue? index = some d ∧ 2 ^ 31 - 1 < d ∧
        integerIndex index = .error (.index (outOfRange t)) := by
  cases index with
  | integer i => exact .inl ⟨i, rfl⟩
  | text t =>
      have hvalue : digitValue? (.text t) =
          some (Nat.ofDigitChars 10 t.chars 0) :=
        digitValue?_eq_some_iff.2 ⟨t, rfl, h, rfl⟩
      rcases Nat.lt_or_ge maxIndex (Nat.ofDigitChars 10 t.chars 0) with
        hlarge | hsmall
      · refine .inr ⟨t, _, rfl, hvalue, hlarge, ?_⟩
        have htext : isDigitText t = true := h
        rw [integerIndex, if_pos htext, indexOfDigits_eq htext,
          if_neg (Nat.not_le.2 hlarge)]
      · exact .inl ⟨_, integerIndex_of_le hvalue hsmall⟩
  | _ => cases h

/-- Targets that hold the items of equal nodes are read alike. -/
theorem alike_of_same (hsame : a.same b = true)
    (htarget : items? target = a.items?) (hother : items? other = b.items?)
    (hindex : isStep index = true) :
    Alike (Context.onlyElements.readIndex target index).outcome
      (Context.onlyElements.readIndex other index).outcome := by
  have hrefused (h : canRead target index = false)
      (h' : canRead other index = false) :
      Alike (Context.onlyElements.readIndex target index).outcome
        (Context.onlyElements.readIndex other index).outcome := by
    rw [readIndex_of_not_canRead hindex h, readIndex_of_not_canRead hindex h']
    exact .refused (.unreadable rfl rfl) (.unreadable rfl rfl)
  rcases items?_of_same hsame with ⟨ha, hb⟩ | ⟨as, bs, ha, hb, hitems⟩
  · exact hrefused (by simp [canRead, htarget, ha]) (by
      simp [canRead, hother, hb])
  · cases hcan : isIndex index with
    | false =>
        exact hrefused (by simp [canRead, hcan]) (by simp [canRead, hcan])
    | true =>
        have hshown := display_of_isStep hindex
        rw [readIndex_of_items? (htarget.trans ha) hcan,
          readIndex_of_items? (hother.trans hb) hcan,
          Context.mapError_passOn hshown, Context.mapError_passOn hshown]
        rcases integerIndex_cases hcan with
          ⟨i, hi⟩ | ⟨t, d, rfl, hvalue, hlarge, hinteger⟩
        · rw [hi]
          exact .element (same_itemOrNullNode hitems i)
        · rw [hinteger]
          exact .refused (.outOfRange rfl hvalue hlarge rfl rfl)
            (.outOfRange rfl hvalue hlarge rfl rfl)

end Step

/-- The readings of two runs, one by one equal and of one kind, and with one
end. -/
structure Agree (first second : Readings) : Prop where
  values : List.Forall₂ (fun t u => (t == u) = true ∧
    t.kind = u.kind) first.values second.values
  ending : ∃ cause, EndsFor first.ending cause ∧ EndsFor second.ending cause

/-- The run from targets that hold the items of equal nodes. -/
theorem agree_of_same {a b : Node} {target other : Value}
    {indexes : List Value} (hsame : a.same b = true)
    (htarget : items? target = a.items?) (hother : items? other = b.items?)
    (hindexes : ∀ index ∈ indexes, isStep index = true) :
    Agree (readings .onlyElements target indexes)
      (readings .onlyElements other indexes) := by
  induction indexes generalizing a b target other with
  | nil => exact ⟨.nil, none, .completed, .completed⟩
  | cons index rest ih =>
      have hstep := alike_of_same hsame htarget hother
        (hindexes index (by simp))
      rw [readings, readings]
      generalize (Context.onlyElements.readIndex target index).outcome =
        outcome at hstep ⊢
      generalize (Context.onlyElements.readIndex other index).outcome =
        outcome' at hstep ⊢
      cases hstep with
      | refused h h' => exact ⟨.nil, _, h, h'⟩
      | @element m n h =>
          have htag := tag_ofElement_eq h
          have hread : (TypedValue.ofElement (some m) == TypedValue.ofElement
              (some n)) = true ∧
              (TypedValue.ofElement (some m)).kind =
                (TypedValue.ofElement (some n)).kind :=
            ⟨TypedValue.same_iff.2 ⟨same_value_ofElement h, htag⟩,
              congrArg ValueKind.text htag⟩
          have hnull : (TypedValue.ofElement (some m)).isNull =
              (TypedValue.ofElement (some n)).isNull :=
            congrArg (· == .null) htag
          cases hm : (TypedValue.ofElement (some m)).isNull with
          | true =>
              simp only [hm, ← hnull, if_true]
              exact ⟨.cons hread .nil, _, .null, .null⟩
          | false =>
              have hlater := ih h (items?_value_ofElement m)
                (items?_value_ofElement n)
                fun other hother => hindexes other (.tail _ hother)
              simp only [hm, ← hnull, Bool.false_eq_true, if_false]
              exact ⟨.cons hread hlater.values, hlater.ending⟩

/-- Equal nodes cannot be told apart by reading.  Under any list of texts and
of integers within the digit limit, a standard context makes equally many
readings from both, one by one equal and of one kind, and ends in both for one
cause, if it does not come to the end of the list. -/
theorem readings_respect_equality {a b : Node} {indexes : List Value}
    (hsame : (a == b) = true)
    (hindexes : ∀ index ∈ indexes, isStep index = true) :
    ∃ c : Context, Context.standard.outcome = .ok c ∧
      let first := readings c (.node a) indexes
      let second := readings c (.node b) indexes
      first.values.length = second.values.length ∧
      List.Forall₂ (fun t u => (t == u) = true ∧
        t.kind = u.kind) first.values second.values ∧
      ∃ cause, EndsFor first.ending cause ∧ EndsFor second.ending cause := by
  have hagree := agree_of_same hsame (items?_node a) (items?_node b) hindexes
  exact ⟨.onlyElements, Context.standard_outcome, hagree.values.length_eq,
    hagree.values, hagree.ending⟩

/-- An array of the derived class and one of the plain class, whose objects
differ in the order of fields and whose zeros differ in sign, under an index
beyond the range. -/
theorem readings_respect_equality_beyond_range :
    let a : Node := .array .derived (some 0)
      [.null, .array .plain none [.number (.zero true),
        .object none [("x", .null), ("y", .null)]]]
    let b : Node := .array .plain none
      [.null, .array .derived none [.number (.zero false), .object (some 1)
        [("y", .null), ("x", .null)]]]
    let indexes : List Value := [.text "01", .text "2147483648"]
    (a == b) = true ∧ (∀ index ∈ indexes, isStep index = true) ∧
      ∃ c : Context, Context.standard.outcome = .ok c ∧
        List.Forall₂ (fun t u => (t == u) = true ∧ t.kind = u.kind)
          (readings c (.node a) indexes).values
            (readings c (.node b) indexes).values ∧
        EndsFor (readings c (.node b) indexes).ending (some .outOfRange) := by
  intro a b indexes
  have hsame : (a == b) = true := by decide
  have hindexes : ∀ index ∈ indexes, isStep index = true := by decide
  obtain ⟨c, hc, -, hvalues, cause, hfirst, hsecond⟩ :=
    readings_respect_equality hsame hindexes
  obtain rfl := Except.ok.inj (Context.standard_outcome.symm.trans hc)
  have hcause : EndsFor (readings .onlyElements (.node a) indexes).ending
      (some .outOfRange) :=
    .outOfRange rfl (d := 2147483648) (by decide) (by decide) rfl rfl
  exact ⟨hsame, hindexes, _, hc, hvalues, hfirst.unique hcause ▸ hsecond⟩

end Path
end IndexAccess
