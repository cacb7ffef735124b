import IndexAccess.Node.Construct
import IndexAccess.Proofs.Node.Equality
import IndexAccess.Proofs.Outcome

/-!
# Nodes restored from their native forms

The native form of a node no longer says which classes its nodes belong to, and
yet it determines them: the classes of leaves convert their arguments, so that
no leaf holds a scalar of another class.  A node is therefore restored from its
native form, with plain arrays in place of derived ones.
-/

namespace IndexAccess

namespace NodeClass

def isLeafClass : NodeClass → Bool
  | text | integer | number | boolean | null => true
  | _ => false

/-- Whether a class builds a node, from an argument or without one. -/
def Builds (type : NodeClass) (n : Node) : Prop :=
  (∃ arg, Node.construct type arg = .ok (.node n)) ∨
    Node.constructEmpty type = .ok n

end NodeClass

namespace Node

/-- Trees of leaves that their classes have built.  An object has every name
once. -/
inductive IsBuilt : Node → Prop
  | leaf {type : NodeClass} {n : Node} (htype : type.isLeafClass = true)
      (hbuilds : type.Builds n) : IsBuilt n
  | array (style : ArrayStyle) (cell : Option Cell) {items : List Node}
      (hitems : ∀ item ∈ items, IsBuilt item) : IsBuilt
        (array style cell items)
  | object (cell : Option Cell) {fields : List (Text × Node)}
      (hnames : (Entries.keys fields).Nodup)
      (hfields : ∀ name n, (name, n) ∈ fields → IsBuilt n) : IsBuilt
        (object cell fields)

mutual

/-- A node with every array a plain one, and apart from this as it is. -/
def plain : Node → Node
  | array _ _ items => array .plain none (plainItems items)
  | object _ fields => object none (plainFields fields)
  | leaf => leaf

def plainItems : List Node → List Node
  | [] => []
  | item :: rest => plain item :: plainItems rest

def plainFields : List (Text × Node) → List (Text × Node)
  | [] => []
  | (name, item) :: rest => (name, plain item) :: plainFields rest

end

theorem plainItems_eq_map (items : List Node) :
    plainItems items = items.map plain := by
  induction items with
  | nil => rfl
  | cons item rest ih => rw [plainItems, ih, List.map_cons]

theorem plainFields_eq_map (fields : List (Text × Node)) :
    plainFields fields = fields.map fun field => (field.1, plain field.2) := by
  induction fields with
  | nil => rfl
  | cons field rest ih => rw [plainFields, ih, List.map_cons]

theorem plain_of_isLeaf {n : Node} (h : n.isLeaf = true) : n.plain = n := by
  cases n with
  | array | object => simp [isLeaf, isContainer] at h
  | _ => rfl

-- A native form is turned into a node along the recursion that made it from
-- one, with one statement for each of the functions that do.
mutual

theorem ofValue_native : ∀ n : Node, ofValue n.native = .ok n.plain
  | text _ | integer _ | number _ | boolean _ | null => rfl
  | array _ _ items => by
    rw [native, ofValue, ofItems_nativeItems items]
    rfl
  | object _ fields => by
    rw [native, ofValue, ofEntries_nativeFields fields]
    rfl

theorem ofItems_nativeItems :
    ∀ items : List Node, ofItems (nativeItems items) = .ok (plainItems items)
  | [] => rfl
  | item :: rest => by
    rw [nativeItems, ofItems, ofValue_native item, ofItems_nativeItems rest]
    rfl

theorem ofEntries_nativeFields :
    ∀ fields : List (Text × Node), ofEntries (nativeFields fields) =
      .ok (plainFields fields)
  | [] => rfl
  | (name, item) :: rest => by
    rw [nativeFields, ofEntries, fieldName, ofValue_native item,
      ofEntries_nativeFields rest]
    rfl

end

/-- A class of leaves builds leaves of its own class, whatever it is given. -/
theorem classOf_of_builds {type : NodeClass} {n : Node}
    (htype : type.isLeafClass = true) (hbuilds : type.Builds n) :
    n.classOf = type.classOf ∧ n.isLeaf = true := by
  rcases hbuilds with ⟨arg, h⟩ | h
  · cases type with
    | text | integer =>
        rcases ok_of_bind_eq_ok h with ⟨content, -, h⟩
        cases h
        exact ⟨rfl, rfl⟩
    | number =>
        rcases ok_of_bind_eq_ok h with ⟨x, -, h⟩
        cases x with
        | finite x =>
            cases h
            exact ⟨rfl, rfl⟩
        | infinite | nan =>
            -- Such a number is refused, whatever it was converted from.
            rcases ok_of_bind_eq_ok h with ⟨leaf, hleaf, -⟩
            rcases ok_of_bind_eq_ok hleaf with ⟨shown, -, hthrow⟩
            cases hthrow
    | boolean =>
        cases h
        exact ⟨rfl, rfl⟩
    | null => cases h
    | any | leaf | array | object => cases htype
  · cases type with
    | null =>
        cases h
        exact ⟨rfl, rfl⟩
    | _ => cases htype <;> cases h

theorem scalar_of_isLeaf {n : Node} (h : n.isLeaf = true) :
    n.scalar = .ok n.native :=
  if_pos h

/-- What is built is the same as its plain form, on either side. -/
theorem same_plain {n : Node} (hn : IsBuilt n) :
    n.same n.plain = true ∧ n.plain.same n = true := by
  induction hn with
  | leaf htype hbuilds =>
      have hleaf := (classOf_of_builds htype hbuilds).2
      rw [plain_of_isLeaf hleaf]
      exact ⟨same_self_of_isLeaf hleaf, same_self_of_isLeaf hleaf⟩
  | @array style cell items _ ih =>
      rw [plain, same, same, plainItems_eq_map]
      constructor
      · simpa using sameItems_map id plain fun item hitem => (ih item hitem).1
      · simpa using sameItems_map plain id fun item hitem => (ih item hitem).2
  | @object cell fields hnames _ ih =>
      rw [plain, same, same, plainFields_eq_map, List.length_map,
        beq_self_eq_true, Bool.true_and]
      constructor
      · simpa using sameFields_map id plain hnames fun name n
          hmem => (ih name n hmem).1
      · simpa using sameFields_map plain id hnames fun name n
          hmem => (ih name n hmem).2

/-- Turning a node into its native form and back restores it, with plain arrays
in place of derived ones, and so gives a node that is the same; the scalar of a
leaf gives the leaf. -/
theorem ofValue_native_restores :
    (∀ n : Node, IsBuilt n →
      ofValue n.native = .ok n.plain ∧ n.same n.plain = true ∧
      n.plain.same n = true) ∧
    ∀ (type : NodeClass) (n : Node), type.isLeafClass = true → type.Builds n →
      n.classOf = type.classOf ∧ ∃ v, n.scalar = .ok v ∧
      ofValue v = .ok n := by
  constructor
  · intro n hn
    exact ⟨ofValue_native n, same_plain hn⟩
  · intro type n htype hbuilds
    rcases classOf_of_builds htype hbuilds with ⟨hclass, hleaf⟩
    refine ⟨hclass, n.native, scalar_of_isLeaf hleaf, ?_⟩
    rw [ofValue_native, plain_of_isLeaf hleaf]

/-- Leaves converted from other scalars, in an object inside a shared array of
the derived class: an integer and a negative zero from texts, a text from
nothing, a truth value from an empty list. -/
theorem ofValue_native_restores_converted_leaves :
    let fields : List (Text × Node) :=
      [("b", .integer 12),
        ("a", .array .derived none [.number (.zero true), .null])]
    let n : Node := .array .derived (some 0)
      [.object none fields, .text "None", .boolean false]
    IsBuilt n ∧
      ofValue n.native = .ok (.array .plain none
        [.object none [("b", .integer 12),
          ("a", .array .plain none [.number (.zero true), .null])],
            .text "None", .boolean false]) ∧
      n.same n.plain = true ∧ n.plain.same n = true ∧
      NodeClass.integer.Builds (.integer 12) ∧
      ∃ v, (Node.integer 12).scalar = .ok v ∧
        ofValue v = .ok (.integer 12) := by
  intro fields n
  have hinteger : NodeClass.integer.Builds (.integer 12) :=
    .inl ⟨.text " 1_2", rfl⟩
  have hnumber : NodeClass.number.Builds (.number (.zero true)) :=
    .inl ⟨.text "-0", rfl⟩
  have hnull : NodeClass.null.Builds .null := .inr rfl
  have htext : NodeClass.text.Builds (.text "None") := .inl ⟨.null, rfl⟩
  have hboolean : NodeClass.boolean.Builds (.boolean false) :=
    .inl ⟨.list [], rfl⟩
  have hinner : IsBuilt (.array .derived none
      [.number (.zero true), .null]) := by
    refine .array _ _ fun item hitem => ?_
    rcases List.mem_pair.1 hitem with rfl | rfl
    · exact .leaf rfl hnumber
    · exact .leaf rfl hnull
  have hfields : ∀ name item, (name, item) ∈ fields → IsBuilt item := by
    intro name item hmem
    rcases List.mem_pair.1 hmem with heq | heq <;> cases heq
    · exact .leaf rfl hinteger
    · exact hinner
  have hn : IsBuilt n := by
    refine .array _ _ fun item hitem => ?_
    simp only [List.mem_cons, List.not_mem_nil, or_false] at hitem
    rcases hitem with rfl | rfl | rfl
    · exact .object none (by decide) hfields
    · exact .leaf rfl htext
    · exact .leaf rfl hboolean
  have hrestored := ofValue_native_restores.1 n hn
  exact ⟨hn, hrestored.1, hrestored.2.1, hrestored.2.2, hinteger,
    (ofValue_native_restores.2 .integer (.integer 12) rfl hinteger).2⟩

end Node
end IndexAccess
