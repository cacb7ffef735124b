import IndexAccess.Feature.Builtin
import IndexAccess.Proofs.Context.Standard
import IndexAccess.Proofs.Node.Document

/-!
# Paths as walks over plain values

A path applied to a document in a standard context is a walk over the plain
value that the document is read into.  The walk knows no nodes, no accessors
and no contexts: a step leads from a list to one of its items, or to null, and
from nothing else.  The proof goes along the path with the invariant that the
current typed value is that of a node whose native form is the value that the
walk has reached.
-/

namespace IndexAccess
namespace Path

open ArrayElement

/-- The position that an index of a walk names: an integer, or the value of a
text of ASCII digits that is at most `2 ^ 31 - 1`. -/
def position? : Value → Option Int
  | .integer i => some i
  | index => (digitValue? index).bind fun d =>
      if d ≤ 2 ^ 31 - 1 then some (d : Int) else none

/-- The item at a position, and null where there is none. -/
def itemOrNull (items : List Value) (i : Int) : Value :=
  if 0 ≤ i then items[i.toNat]?.getD .null else .null

/-- One step of a walk; it is possible on a list only. -/
def advance? : Value → Value → Option Value
  | .list items, index => (position? index).map (itemOrNull items)
  | _, _ => none

/-- The value that a walk ends on, if every step is possible. -/
def walk : Value → List Value → Option Value
  | v, [] => some v
  | v, index :: rest => (advance? v index).bind fun next => walk next rest

theorem walk_append (v : Value) (before after : List Value) :
    walk v (before ++ after) = (walk v before).bind fun u => walk u after := by
  induction before generalizing v with
  | nil => rfl
  | cons index rest ih =>
      rw [List.cons_append, walk, walk, Option.bind_assoc]
      congr 1
      funext next
      exact ih next

def kindOf : Value → String
  | .null => "null"
  | .list _ | .dict _ => "node"
  | _ => "scalar"

/-- A text, or an integer within the digit limit. -/
def isStep : Value → Bool
  | .text _ => true
  | .integer i => Number.isWritable i
  | _ => false

theorem isStep_of_mem_map_text {α : Type} (f : α → Text) (names : List α) :
    ∀ index ∈ names.map fun name =>
      Value.text (f name), isStep index = true := by
  intro index hindex
  obtain ⟨name, -, rfl⟩ := List.mem_map.1 hindex
  rfl

theorem display_of_isStep {index : Value} (h : isStep index = true) :
    index.display = .ok index.shown := by
  apply Value.display_of_no_obstacle
  cases index with
  | text => rfl
  | integer i =>
      rw [isStep] at h
      rw [Value.obstacle?, if_pos h]
  | _ => cases h

/-- The position of a walk is the integer that the index stands for. -/
theorem position?_eq_some_iff {index : Value} {i : Int} :
    position? index = some i ↔
      isIndex index = true ∧ integerIndex index = .ok i := by
  cases index with
  | integer j => simp [position?, isIndex, integerIndex]
  | text t =>
      cases hvalue : digitValue? (.text t) with
      | none =>
          have htext : isDigitText t = false := by
            simpa [digitValue?] using hvalue
          simp [position?, hvalue, isIndex, isNumericText, htext]
      | some d =>
          obtain ⟨other, heq, htext, -⟩ := digitValue?_eq_some_iff.1 hvalue
          obtain rfl := Value.text.inj heq
          simp only [position?, hvalue, Option.bind_some, isIndex,
            isNumericText, htext, true_and]
          by_cases hd : d ≤ 2 ^ 31 - 1
          · rw [if_pos hd, integerIndex_of_le hvalue hd]
            simp
          · obtain ⟨reason, hreason⟩ :=
              integerIndex_of_lt hvalue (Nat.not_le.1 hd)
            rw [if_neg hd, hreason]
            simp
  | _ => simp [position?, digitValue?, isIndex, isNumericText]

theorem of_position?_eq_none {index : Value} (h : position? index = none) :
    isIndex index = false ∨
      ∃ reason, integerIndex index =
        .error (.index (.inaccessible reason)) := by
  cases index with
  | integer j => simp [position?] at h
  | text t =>
      cases hvalue : digitValue? (.text t) with
      | none =>
          have htext : isDigitText t = false := by
            simpa [digitValue?] using hvalue
          exact .inl (by simp [isIndex, isNumericText, htext])
      | some d =>
          have hd : 2 ^ 31 - 1 < d := by simpa [position?, hvalue] using h
          exact .inr (integerIndex_of_lt hvalue hd)
  | _ => exact .inl rfl

theorem isDocument_of_advance? {T : Text → Prop} {v next index : Value}
    (hv : Json.IsDocument T v) (h : advance? v index = some next) :
    Json.IsDocument T next := by
  unfold advance? at h
  split at h
  next items =>
    obtain ⟨i, -, rfl⟩ := Option.map_eq_some_iff.1 h
    unfold itemOrNull
    split
    next =>
      cases hitem : items[i.toNat]? with
      | none => exact .null
      | some item => exact hv.items item (List.mem_of_getElem? hitem)
    next => exact .null
  next => cases h

theorem isDocument_of_walk {T : Text → Prop} {v last : Value}
    {indexes : List Value} (hv : Json.IsDocument T v)
    (h : walk v indexes = some last) :
    Json.IsDocument T last := by
  induction indexes generalizing v with
  | nil =>
      obtain rfl := Option.some.inj h
      exact hv
  | cons index rest ih =>
      obtain ⟨next, hnext, hrest⟩ := Option.bind_eq_some_iff.1 h
      exact ih (isDocument_of_advance? hv hnext) hrest

/-! ## Elements of the native form -/

section Native

variable (n : Node)

theorem getElem?_nativeItems (items : List Node) (k : Nat) :
    (Node.nativeItems items)[k]? = items[k]?.map Node.native := by
  induction items generalizing k with
  | nil => rfl
  | cons item rest ih =>
      cases k with
      | zero => rfl
      | succ k => simpa [Node.nativeItems] using ih k

/-- The item of an array, with null in place of an absent one. -/
def itemOrNullNode (items : List Node) (i : Int) : Node :=
  (Node.itemAt? items i).getD .null

theorem native_itemOrNullNode (items : List Node) (i : Int) :
    (itemOrNullNode items i).native =
      itemOrNull (Node.nativeItems items) i := by
  unfold itemOrNullNode itemOrNull
  by_cases hi : i < 0
  · rw [Node.itemAt?_of_neg items hi, if_neg (Int.not_le.2 hi)]
    rfl
  · have hnonneg := Int.not_lt.1 hi
    rw [Node.itemAt?_of_nonneg items hnonneg, if_pos hnonneg,
      getElem?_nativeItems]
    cases items[i.toNat]? <;> rfl

theorem ofElement_itemOrNullNode (items : List Node) (i : Int) :
    TypedValue.ofElement (Node.itemAt? items i) =
      TypedValue.ofElement (some (itemOrNullNode items i)) := by
  unfold itemOrNullNode
  cases Node.itemAt? items i <;> rfl

theorem native_ofElement :
    (TypedValue.ofElement (some n)).native = n.native := by
  cases n <;> rfl

theorem kind_ofElement : (TypedValue.ofElement (some n)).kind =
    kindOf n.native := by
  cases n <;> rfl

theorem isNull_ofElement :
    (TypedValue.ofElement (some n)).isNull = true ↔ n.native = .null := by
  cases n <;> simp [TypedValue.ofElement, TypedValue.isNull, TypedValue.null,
    TypedValue.scalar, TypedValue.node, Node.isNull, Node.isLeaf,
    Node.isContainer, Node.native]

theorem items?_value_ofElement :
    items? (TypedValue.ofElement (some n)).value = n.items? := by
  cases n <;> rfl

theorem advance?_native (index : Value) :
    advance? n.native index =
      n.items?.bind fun items =>
        (position? index).map (itemOrNull (Node.nativeItems items)) := by
  cases n <;> rfl

end Native

/-! ## One index -/

section Steps

variable {target index : Value} {n : Node}

theorem items?_node (n : Node) : items? (.node n) = n.items? := rfl

theorem readIndex_of_not_canRead (hindex : isStep index = true)
    (h : canRead target index = false) :
    (Context.onlyElements.readIndex target index).outcome =
      .error (.index (.notReadable ⟨target.classOf, index, index.shown,
        none⟩ none)) := by
  rw [Context.readIndex_onlyElements, h, if_neg Bool.false_ne_true,
    Context.refuseAll_of_display (display_of_isStep hindex)]
  rfl

/-- An index of arrays reads the item at its integer, or fails as the integer
does. -/
theorem readIndex_of_items? {items : List Node}
    (htarget : items? target = some items) (hindex : isIndex index = true) :
    (Context.onlyElements.readIndex target index).outcome =
      ((integerIndex index).map fun i =>
        TypedValue.ofElement (some (itemOrNullNode items i))).mapError
          (Context.passOn target index .notReadable) := by
  have hcan : canRead target index = true := by simp [canRead, htarget, hindex]
  rw [Context.readIndex_onlyElements, if_pos hcan]
  simp only [ArrayElement.read, htarget, ← ofElement_itemOrNullNode]
  cases integerIndex index <;> rfl

/-- A possible step reads the item that the walk leads to. -/
theorem readIndex_of_advance? {v : Value} (htarget : items? target = n.items?)
    (h : advance? n.native index = some v) :
    ∃ m : Node, m.native = v ∧
      (Context.onlyElements.readIndex target index).outcome =
        .ok (TypedValue.ofElement (some m)) := by
  rw [advance?_native, Option.bind_eq_some_iff] at h
  obtain ⟨items, hitems, h⟩ := h
  obtain ⟨i, hi, rfl⟩ := Option.map_eq_some_iff.1 h
  obtain ⟨hindex, hinteger⟩ := position?_eq_some_iff.1 hi
  refine ⟨itemOrNullNode items i, native_itemOrNullNode items i, ?_⟩
  rw [readIndex_of_items? (htarget.trans hitems) hindex, hinteger]
  rfl

/-- A step that is not possible is a failure of index access. -/
theorem readIndex_of_advance?_eq_none (htarget : items? target = n.items?)
    (hindex : isStep index = true) (h : advance? n.native index = none) :
    ∃ failure,
      (Context.onlyElements.readIndex target index).outcome =
        .error (.index failure) := by
  cases hcan : canRead target index with
  | false => exact ⟨_, readIndex_of_not_canRead hindex hcan⟩
  | true =>
      rw [canRead, Bool.and_eq_true, htarget, Option.isSome_iff_exists] at hcan
      obtain ⟨⟨items, hitems⟩, hnumber⟩ := hcan
      rw [advance?_native, Option.bind_eq_none_iff] at h
      have hposition : position? index = none :=
        Option.map_eq_none_iff.1 (h items hitems)
      rcases of_position?_eq_none hposition with hnot | ⟨reason, hreason⟩
      · rw [hnumber] at hnot
        cases hnot
      · rw [readIndex_of_items? (htarget.trans hitems) hnumber, hreason,
          Context.mapError_passOn (display_of_isStep hindex)]
        exact ⟨_, rfl⟩

/-- Following a path takes one step with the current value and then follows the
rest. -/
theorem follow_cons_outcome (c : Context) (step : Nat) {current : TypedValue}
    (index : Value) (rest : List Value) (hcurrent : current.isNull = false) :
    (follow c step current (index :: rest)).outcome =
      (c.readIndex current.value index).outcome.bind fun next =>
        (follow c (step + 1) next rest).outcome := by
  rw [follow, hcurrent, if_neg (by simp), Run.outcome_bind]
  rfl

theorem follow_null_cons (c : Context) (step : Nat) {current : TypedValue}
    {index : Value} (rest : List Value) (hcurrent : current.isNull = true)
    (hindex : isStep index = true) :
    (follow c step current (index :: rest)).outcome =
      .error (.index (.valueIsNull step index.shown)) := by
  rw [follow, if_pos hcurrent, stopAtNull, display_of_isStep hindex]
  rfl

end Steps

/-- From a node on, a possible walk is followed to a node for the value it ends
on. -/
theorem follow_of_walk {n : Node} {v : Value}
    {indexes : List Value} (step : Nat) (h : walk n.native indexes = some v) :
    ∃ m : Node, m.native = v ∧
      (follow .onlyElements step (TypedValue.ofElement (some n))
        indexes).outcome =
        .ok (TypedValue.ofElement (some m)) := by
  induction indexes generalizing n step with
  | nil => exact ⟨n, Option.some.inj h, rfl⟩
  | cons index rest ih =>
      obtain ⟨next, hnext, hrest⟩ := Option.bind_eq_some_iff.1 h
      obtain ⟨m, rfl, hread⟩ :=
        readIndex_of_advance? (items?_value_ofElement n) hnext
      obtain ⟨last, hlast, hfollow⟩ := ih (step + 1) hrest
      have hnonnull : (TypedValue.ofElement (some n)).isNull = false := by
        rw [Bool.eq_false_iff]
        intro hnull
        rw [(isNull_ofElement n).1 hnull] at hnext
        cases hnext
      refine ⟨last, hlast, ?_⟩
      rw [follow_cons_outcome _ _ _ _ hnonnull, hread]
      exact hfollow

/-- From a node on, a walk that is not possible ends in a failure of index
access. -/
theorem follow_of_walk_eq_none {n : Node} {indexes : List Value} (step : Nat)
    (hindexes : ∀ index ∈ indexes, isStep index = true)
    (h : walk n.native indexes = none) :
    ∃ failure,
      (follow .onlyElements step (TypedValue.ofElement (some n))
        indexes).outcome =
        .error (.index failure) := by
  induction indexes generalizing n step with
  | nil => cases h
  | cons index rest ih =>
      have hindex := hindexes index (by simp)
      cases hnull : (TypedValue.ofElement (some n)).isNull with
      | true => exact ⟨_, follow_null_cons _ _ _ hnull hindex⟩
      | false =>
          rw [follow_cons_outcome _ _ _ _ hnull]
          cases hnext : advance? n.native index with
          | none =>
              obtain ⟨failure, hfailure⟩ :=
                readIndex_of_advance?_eq_none
                  (items?_value_ofElement n) hindex hnext
              exact ⟨failure, by rw [hfailure]; rfl⟩
          | some next =>
              obtain ⟨m, rfl, hread⟩ :=
                readIndex_of_advance? (items?_value_ofElement n) hnext
              rw [walk, hnext] at h
              obtain ⟨failure, hfailure⟩ :=
                ih (step + 1)
                  (fun other hother => hindexes other (.tail _ hother)) h
              exact ⟨failure, by rw [hread]; exact hfailure⟩

theorem stopAtNull_outcome {α : Type} (step : Nat) (index : Value) :
    ∃ failure, (stopAtNull step index : Run α).outcome = .error failure := by
  unfold stopAtNull
  cases index.display with
  | error failure => exact ⟨failure, rfl⟩
  | ok shown => exact ⟨_, rfl⟩

/-- A path in two parts is followed through the first part and then through the
second, whose steps count on. -/
theorem follow_append_outcome (c : Context) (step : Nat) (current : TypedValue)
    (before after : List Value) :
    (follow c step current (before ++ after)).outcome =
      (follow c step current before).outcome.bind fun t =>
        (follow c (step + before.length) t after).outcome := by
  induction before generalizing step current with
  | nil => rfl
  | cons index rest ih =>
      cases hnull : current.isNull with
      | true =>
          obtain ⟨failure, hfailure⟩ :=
            stopAtNull_outcome (α := TypedValue) step index
          rw [List.cons_append, follow, if_pos hnull, follow, if_pos hnull,
            hfailure]
          rfl
      | false =>
          rw [List.cons_append, follow_cons_outcome _ _ _ _ hnull,
            follow_cons_outcome _ _ _ _ hnull]
          cases (c.readIndex current.value index).outcome with
          | error failure => rfl
          | ok next =>
              have hlength :
                  step + (index :: rest).length = step + 1 + rest.length := by
                rw [List.length_cons]
                omega
              rw [hlength]
              exact ih (step + 1) next

/-! ## From the root of a document -/

section Root

variable {n : Node} {index : Value} {rest : List Value}

theorem follow_root_cons (indexes : List Value) :
    (follow .onlyElements 1 (.node (.node n)) (index :: indexes)).outcome =
      (Context.onlyElements.readIndex (.node n) index).outcome.bind fun next =>
        (follow .onlyElements 2 next indexes).outcome :=
  follow_cons_outcome _ 1 index indexes rfl

theorem follow_root_of_walk {v : Value}
    (h : walk n.native (index :: rest) = some v) :
    ∃ m : Node, m.native = v ∧
      (follow .onlyElements 1 (.node (.node n)) (index :: rest)).outcome =
        .ok (TypedValue.ofElement (some m)) := by
  obtain ⟨next, hnext, hrest⟩ := Option.bind_eq_some_iff.1 h
  obtain ⟨m, rfl, hread⟩ := readIndex_of_advance? (items?_node n) hnext
  obtain ⟨last, hlast, hfollow⟩ := follow_of_walk 2 hrest
  exact ⟨last, hlast, by rw [follow_root_cons, hread]; exact hfollow⟩

theorem follow_root_of_walk_eq_none {indexes : List Value}
    (hindexes : ∀ index ∈ indexes, isStep index = true)
    (h : walk n.native indexes = none) :
    ∃ failure,
      (follow .onlyElements 1 (.node (.node n)) indexes).outcome =
        .error (.index failure) := by
  cases indexes with
  | nil => cases h
  | cons index rest =>
      rw [follow_root_cons]
      cases hnext : advance? n.native index with
      | none =>
          obtain ⟨failure, hfailure⟩ :=
            readIndex_of_advance?_eq_none (items?_node n)
              (hindexes index (by simp)) hnext
          exact ⟨failure, by rw [hfailure]; rfl⟩
      | some next =>
          obtain ⟨m, rfl, hread⟩ := readIndex_of_advance? (items?_node n) hnext
          rw [walk, hnext] at h
          obtain ⟨failure, hfailure⟩ := follow_of_walk_eq_none 2
            (fun other hother => hindexes other (.tail _ hother)) h
          exact ⟨failure, by rw [hread]; exact hfailure⟩

theorem exists_node_of_walk {last : Value} {indexes : List Value}
    (h : walk n.native indexes = some last) : ∃ m : Node, m.native = last := by
  cases indexes with
  | nil => exact ⟨n, Option.some.inj h⟩
  | cons index rest =>
      obtain ⟨m, hm, -⟩ := follow_root_of_walk h
      exact ⟨m, hm⟩

end Root

/-- The kind that is answered: that of the value, except that a path without
indexes leaves the root, which is a node. -/
def answeredKind (indexes : List Value) (v : Value) : String :=
  if indexes.isEmpty then "node" else kindOf v

/-! ## The answer for a document -/

section Document

variable {document : Text} {root : Value} {n : Node} {indexes : List Value}

theorem readDocument_outcome (hroot : Json.readDocument document = .ok root)
    (hn : Node.ofValue root = .ok n) :
    (Feature.readDocument Context.standard document indexes).outcome =
      (Feature.settle (follow .onlyElements 1 (.node (.node n))
        indexes)).outcome := by
  unfold Feature.readDocument
  simp only [hroot, Context.standard_bind, apply, hn, Run.ofExcept_ok_bind]

theorem settle_outcome_ok {run : Run TypedValue} {t : TypedValue}
    (h : run.outcome = .ok t) :
    (Feature.settle run).outcome =
      .ok (.ok (Feature.record [("kind", .text t.kind),
        ("value", t.native)])) := by
  simp only [Feature.settle, h]

theorem settle_outcome_error {run : Run TypedValue} {failure : IndexFailure}
    (h : run.outcome = .error (.index failure)) :
    (Feature.settle run).outcome = .ok (.fail failure.message) := by
  simp only [Feature.settle, h]

/-- A document that has no node is answered with a failed result. -/
theorem readDocument_of_ofValue_error {failure : Failure}
    (hroot : Json.readDocument document = .ok root)
    (hn : Node.ofValue root = .error failure) :
    (Feature.readDocument Context.standard document indexes).outcome =
      .ok (.fail failure.message) := by
  obtain ⟨fault, rfl⟩ := Node.ofValue_error
    (Json.isDocument_of_readDocument hroot) hn
  unfold Feature.readDocument
  simp only [hroot, Context.standard_bind, apply, hn, Run.ofExcept,
    Feature.settle]
  rfl

theorem readDocument_of_walk {v : Value}
    (hroot : Json.readDocument document = .ok root)
    (hn : Node.ofValue root = .ok n) (hv : walk n.native indexes = some v) :
    (Feature.readDocument Context.standard document indexes).outcome =
      .ok (.ok (Feature.record
        [("kind", .text (answeredKind indexes v)), ("value", v)])) := by
  rw [readDocument_outcome hroot hn]
  cases indexes with
  | nil =>
      obtain rfl := Option.some.inj hv
      exact settle_outcome_ok (t := .node (.node n)) rfl
  | cons index rest =>
      obtain ⟨m, rfl, hfollow⟩ := follow_root_of_walk hv
      rw [settle_outcome_ok hfollow, kind_ofElement, native_ofElement]
      rfl

/-- A successful answer gives what following the indexes from the node of the
document leads to. -/
theorem follow_of_readDocument {result : Result}
    (h : (Feature.readDocument Context.standard document indexes).outcome =
      .ok result)
    (hsuccess : result.success = true) :
    ∃ root n t, Json.readDocument document = .ok root ∧
      Node.ofValue root = .ok n ∧
      (follow .onlyElements 1 (.node (.node n)) indexes).outcome = .ok t ∧
        result = .ok (Feature.record [("kind", .text t.kind),
          ("value", t.native)]) := by
  cases hroot : Json.readDocument document with
  | error fault =>
      cases fault with
      | malformed kind rest =>
          rw [Feature.readDocument, hroot] at h
          obtain rfl := Except.ok.inj h
          cases hsuccess
      | tooManyDigits count =>
          rw [Feature.readDocument, hroot] at h
          cases h
  | ok root =>
      cases hn : Node.ofValue root with
      | error failure =>
          rw [readDocument_of_ofValue_error hroot hn] at h
          obtain rfl := Except.ok.inj h
          cases hsuccess
      | ok n =>
          rw [readDocument_outcome hroot hn] at h
          cases hfollow : (follow .onlyElements 1 (.node (.node n))
            indexes).outcome with
          | ok t =>
              rw [settle_outcome_ok hfollow] at h
              exact ⟨root, n, t, rfl, hn, hfollow, (Except.ok.inj h).symm⟩
          | error failure =>
              cases failure with
              | index failure =>
                  rw [settle_outcome_error hfollow] at h
                  obtain rfl := Except.ok.inj h
                  cases hsuccess
              | value | exit =>
                  simp only [Feature.settle, hfollow] at h
                  cases h

theorem walk_of_readDocument {result : Result}
    (hindexes : ∀ index ∈ indexes, isStep index = true)
    (h : (Feature.readDocument Context.standard document indexes).outcome =
      .ok result)
    (hsuccess : result.success = true) :
    ∃ root v, Json.readDocument document = .ok root ∧
      root.hasFiniteNumbers = true ∧
      walk root indexes = some v ∧
        result = .ok (Feature.record
          [("kind", .text (answeredKind indexes v)), ("value", v)]) := by
  obtain ⟨root, n, t, hroot, hn, hfollow, -⟩ :=
    follow_of_readDocument h hsuccess
  obtain rfl := Node.native_of_ofValue
    (Json.isDocument_of_readDocument hroot) hn
  cases hwalk : walk n.native indexes with
  | none =>
      obtain ⟨failure, hfailure⟩ := follow_root_of_walk_eq_none hindexes hwalk
      rw [hfollow] at hfailure
      cases hfailure
  | some v =>
      rw [readDocument_of_walk hroot hn hwalk] at h
      exact ⟨n.native, v, hroot, n.native_hasFiniteNumbers, hwalk,
        (Except.ok.inj h).symm⟩

/-- Whatever value is answered for a document is one that documents hold, with
finite numbers only. -/
theorem value_of_readDocument {T : Text → Prop} {result : Result}
    (hT : Json.ReadsTexts T document.points)
    (hindexes : ∀ index ∈ indexes, isStep index = true)
    (h : (Feature.readDocument Context.standard document indexes).outcome =
      .ok result)
    (hsuccess : result.success = true) :
    ∃ kind value, result = .ok
      (Feature.record [("kind", .text kind), ("value", value)]) ∧
      Json.IsDocument T value ∧ value.hasFiniteNumbers = true := by
  obtain ⟨root, v, hroot, hfinite, hwalk, rfl⟩ :=
    walk_of_readDocument hindexes h hsuccess
  have hdocument := Json.isDocument_of_readsTexts hT hroot
  obtain ⟨n, hn⟩ := Node.ofValue_isOk hdocument hfinite
  obtain rfl := Node.native_of_ofValue hdocument hn
  obtain ⟨m, rfl⟩ := exists_node_of_walk hwalk
  exact ⟨_, _, rfl, isDocument_of_walk hdocument hwalk,
    m.native_hasFiniteNumbers⟩

end Document

/-- Applying indexes to a document in a standard context refines the walk over
the plain value of the document: it succeeds exactly if the walk is possible,
with the value that the walk ends on and the kind of that value; otherwise it
answers with a failed result, which says so where an index was to be applied to
a null that the indexes before it had led to. -/
theorem readDocument_refines_walk (document : Text) (root : Value)
    (indexes : List Value) (hroot : Json.readDocument document = .ok root)
    (hfinite : root.hasFiniteNumbers = true)
    (hindexes : ∀ index ∈ indexes, isStep index = true) :
    (∀ v, walk root indexes = some v →
      (Feature.readDocument Context.standard document indexes).outcome =
        .ok (.ok (Feature.record
          [("kind", .text (answeredKind indexes v)), ("value", v)]))) ∧
    (walk root indexes = none → ∃ error,
      (Feature.readDocument Context.standard document indexes).outcome =
        .ok (.fail error)) ∧
    ∀ before index after, indexes = before ++ index :: after → before ≠ [] →
      walk root before = some .null →
      (Feature.readDocument Context.standard document indexes).outcome =
        .ok (.fail
          s!"Cannot apply index [{index.shown}] at step {before.length + 1}: value is null") := by
  have hdocument := Json.isDocument_of_readDocument hroot
  obtain ⟨n, hn⟩ := Node.ofValue_isOk hdocument hfinite
  obtain rfl := Node.native_of_ofValue hdocument hn
  refine ⟨?_, ?_, ?_⟩
  · exact fun v hv => readDocument_of_walk hroot hn hv
  · intro hnone
    rw [readDocument_outcome hroot hn]
    obtain ⟨failure, hfailure⟩ := follow_root_of_walk_eq_none hindexes hnone
    exact ⟨failure.message, settle_outcome_error hfailure⟩
  · intro before index after heq hbefore hnull
    rw [readDocument_outcome hroot hn]
    cases before with
    | nil => exact absurd rfl hbefore
    | cons first others =>
        obtain ⟨m, hm, hfollow⟩ := follow_root_of_walk hnull
        have hstop := follow_null_cons .onlyElements
          (1 + (first :: others).length) after
          ((isNull_ofElement m).2 hm) (hindexes index (by simp [heq]))
        have hpath : (follow .onlyElements 1 (.node (.node n))
            indexes).outcome =
            .error (.index
              (.valueIsNull (1 + (first :: others).length) index.shown)) := by
          rw [heq, follow_append_outcome, hfollow]
          exact hstop
        rw [settle_outcome_error hpath, Nat.add_comm 1]
        rfl

/-- A path to a null inside an array, and the same path with one index more. -/
theorem readDocument_refines_walk_to_null :
    Json.readDocument "[[7, null]]" = .ok (.list [.list [.integer 7, .null]]) ∧
      (Feature.readDocument Context.standard "[[7, null]]"
        [.text "00", .integer 1]).outcome =
          .ok (.ok (Feature.record [("kind", .text "null"),
            ("value", .null)])) ∧
      (Feature.readDocument Context.standard "[[7, null]]"
        [.text "00", .integer 1, .text "x"]).outcome =
          .ok (.fail (IndexFailure.valueIsNull 3
            (Value.text "x").shown).message) := by
  have hroot : Json.readDocument "[[7, null]]" =
      .ok (.list [.list [.integer 7, .null]]) := by cbv
  have hinteger : Number.isWritable 1 = true := by decide +kernel
  have hsteps : ∀ index ∈ [Value.text "00", .integer 1, .text "x"],
      isStep index = true := by
    simp [isStep, hinteger]
  have hpath : ∀ index ∈ [Value.text "00", .integer 1],
      isStep index = true := by
    simp [isStep, hinteger]
  have hwalk : walk (.list [.list [.integer 7, .null]])
      [.text "00", .integer 1] =
      some .null := rfl
  exact ⟨hroot, (readDocument_refines_walk _ _ _ hroot rfl hpath).1 _ hwalk,
    (readDocument_refines_walk _ _ _ hroot rfl hsteps).2.2
      [.text "00", .integer 1]
      (.text "x") [] rfl (by simp) hwalk⟩

end Path
end IndexAccess
