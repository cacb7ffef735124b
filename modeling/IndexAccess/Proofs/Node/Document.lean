import IndexAccess.Proofs.Node.NormalForm
import IndexAccess.Proofs.Node.Offenders

/-!
# Documents as nodes

The node of a document stands for exactly that document, and a document has a
node unless it holds a number that is not finite.  Numbers in nodes are finite
by construction, so no native form holds another number.
-/

namespace IndexAccess

open Json

namespace Value

mutual

/-- Whether every number in a value is finite. -/
def hasFiniteNumbers : Value → Bool
  | number (.finite _) => true
  | number _ => false
  | list items | tuple items => haveFiniteNumbers items
  | dict entries | mapping entries => entriesHaveFiniteNumbers entries
  | _ => true

def haveFiniteNumbers : List Value → Bool
  | [] => true
  | item :: rest => hasFiniteNumbers item && haveFiniteNumbers rest

def entriesHaveFiniteNumbers : List (Value × Value) → Bool
  | [] => true
  | (key, item) :: rest =>
    hasFiniteNumbers key && hasFiniteNumbers item &&
      entriesHaveFiniteNumbers rest

end

theorem haveFiniteNumbers_iff {items : List Value} :
    haveFiniteNumbers items = true ↔
      ∀ item ∈ items, item.hasFiniteNumbers = true := by
  induction items with
  | nil => simp [haveFiniteNumbers]
  | cons item rest ih => simp [haveFiniteNumbers, ih]

theorem hasFiniteNumbers_dictValue_iff {fields : List (Text × Value)} :
    (dictValue fields).hasFiniteNumbers = true ↔
      ∀ name value, (name, value) ∈ fields →
        value.hasFiniteNumbers = true := by
  simp only [dictValue, hasFiniteNumbers]
  induction fields with
  | nil => simp [entriesHaveFiniteNumbers]
  | cons field rest ih =>
      obtain ⟨name, value⟩ := field
      simp only [List.map_cons, entriesHaveFiniteNumbers, hasFiniteNumbers,
        Bool.true_and, Bool.and_eq_true, ih, List.mem_cons, Prod.mk.injEq]
      constructor
      · rintro ⟨hvalue, hrest⟩ n v (⟨-, rfl⟩ | hmem)
        · exact hvalue
        · exact hrest n v hmem
      · intro h
        exact ⟨h name value (.inl ⟨rfl, rfl⟩),
          fun n v hmem => h n v (.inr hmem)⟩

end Value

namespace Node

mutual

theorem native_hasFiniteNumbers : ∀ n : Node, n.native.hasFiniteNumbers = true
  | text _ | integer _ | number _ | boolean _ | null => rfl
  | array _ _ items => by
    simpa [native, Value.hasFiniteNumbers]
      using nativeItems_haveFiniteNumbers items
  | object _ fields => by
    simpa [native, Value.hasFiniteNumbers]
      using nativeFields_haveFiniteNumbers fields

theorem nativeItems_haveFiniteNumbers :
    ∀ items : List Node, Value.haveFiniteNumbers (nativeItems items) = true
  | [] => rfl
  | item :: rest => by
    simp [nativeItems, Value.haveFiniteNumbers, native_hasFiniteNumbers item,
      nativeItems_haveFiniteNumbers rest]

theorem nativeFields_haveFiniteNumbers :
    ∀ fields : List (Text × Node),
      Value.entriesHaveFiniteNumbers (nativeFields fields) = true
  | [] => rfl
  | (_, item) :: rest => by
    simp [nativeFields, Value.entriesHaveFiniteNumbers, Value.hasFiniteNumbers,
      native_hasFiniteNumbers item, nativeFields_haveFiniteNumbers rest]

end

variable {T : Text → Prop}

/-- The node of a document stands for the document. -/
theorem native_of_ofValue {v : Value} {n : Node} (hv : IsDocument T v)
    (h : ofValue v = .ok n) : n.native = v :=
  (native_eq_normalForm h).trans (Value.normalForm_of_isDocument hv)

/-- All that keeps a document from having a node is its numbers. -/
theorem offender_of_isDocument {v : Value} (hv : IsDocument T v) {o : Offender}
    (ho : o ∈ v.offenders) :
    (∃ x, o = .number x) ∧ v.hasFiniteNumbers = false := by
  induction hv with
  | null | boolean | integer | text => cases ho
  | number x =>
      cases x with
      | finite => cases ho
      | infinite | nan => exact ⟨⟨_, List.mem_singleton.1 ho⟩, rfl⟩
  | list _ ih =>
      rw [Value.offenders, Value.itemOffenders_eq] at ho
      obtain ⟨item, hmem, hitem⟩ := List.mem_flatMap.1 ho
      obtain ⟨hnumber, hfinite⟩ := ih item hmem hitem
      refine ⟨hnumber, Bool.eq_false_iff.2 fun hall => ?_⟩
      rw [Value.hasFiniteNumbers, Value.haveFiniteNumbers_iff] at hall
      exact Bool.eq_false_iff.1 hfinite (hall item hmem)
  | dict _ _ _ ih =>
      rw [dictValue, Value.offenders, Value.entryOffenders_eq,
        List.flatMap_map] at ho
      obtain ⟨⟨name, value⟩, hmem, hentry⟩ := List.mem_flatMap.1 ho
      obtain ⟨hnumber, hfinite⟩ := ih name value hmem hentry
      refine ⟨hnumber, Bool.eq_false_iff.2 fun hall => ?_⟩
      rw [Value.hasFiniteNumbers_dictValue_iff] at hall
      exact Bool.eq_false_iff.1 hfinite (hall name value hmem)

/-- A document without infinities and not-a-number has a node. -/
theorem ofValue_isOk {v : Value} (hv : IsDocument T v)
    (hfinite : v.hasFiniteNumbers = true) :
    ∃ n, ofValue v = .ok n := by
  rcases ofValue_cases v with ⟨-, hn⟩ | ⟨first, later, hoffenders, -⟩
  · exact hn
  · have hfirst := offender_of_isDocument hv (hoffenders ▸ List.mem_cons_self)
    exact absurd hfinite (Bool.eq_false_iff.1 hfirst.2)

/-- A document that has no node fails as a value without a representation. -/
theorem ofValue_error {v : Value} {failure : Failure} (hv : IsDocument T v)
    (h : ofValue v = .error failure) :
    ∃ fault, failure = .index (.unrepresentable fault) := by
  rcases ofValue_cases v with ⟨-, n, hn⟩ | ⟨first, later, hoffenders, herror⟩
  · cases hn.symm.trans h
  · obtain ⟨⟨x, rfl⟩, -⟩ :=
      offender_of_isDocument hv (hoffenders ▸ List.mem_cons_self)
    exact ⟨_, Except.error.inj (h.symm.trans herror)⟩

/-- Turning a value into a node and back loses nothing but the kind of its
containers.  A value that a document is read into has a node, if its numbers
are finite, and comes back as it is. -/
theorem ofValue_loses_nothing :
    (∀ (v : Value) (n : Node), ofValue v = .ok n → n.native = v.normalForm) ∧
    ∀ (document : Text) (v : Value), readDocument document = .ok v →
      v.hasFiniteNumbers = true → ∃ n, ofValue v = .ok n ∧ n.native = v := by
  constructor
  · intro v n h
    exact native_eq_normalForm h
  · intro document v hread hfinite
    have hdocument := isDocument_of_readDocument hread
    obtain ⟨n, hn⟩ := ofValue_isOk hdocument hfinite
    exact ⟨n, hn, native_of_ofValue hdocument hn⟩

/-- A tuple with a truth value, an integer that equals it, a negative zero, and
a node of the derived array class inside a read-only mapping. -/
theorem ofValue_loses_nothing_in_tuple :
    let embedded : Node := .array .derived none [.null, .integer 7]
    let v : Value := .tuple [.boolean true, .integer 1,
      .number (.finite (.zero true)),
      .mapping [(.text "b", .tuple []), (.text "a", .node embedded)]]
    ∃ n, ofValue v = .ok n ∧
      n.native = .list [.boolean true, .integer 1,
        .number (.finite (.zero true)),
        .dict [(.text "b", .list []),
          (.text "a", .list [.null, .integer 7])]] := by
  intro embedded v
  exact ⟨_, rfl, ofValue_loses_nothing.1 v _ rfl⟩

end Node
end IndexAccess
