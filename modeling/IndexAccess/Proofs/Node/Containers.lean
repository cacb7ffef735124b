import IndexAccess.Node.Construct
import IndexAccess.Node.Lookup
import IndexAccess.Proofs.Node.DistinctNames
import IndexAccess.Proofs.Node.Equality

/-!
# Containers after any number of changes

Setting fields of an object, one after the other, leaves every name once, at
the place of its first appearance and with the node that was set last.
Everything that can be asked of the object, and its equality with another one,
follows from the sequence of what it held at first and what was set later.  An
array that is added to holds its items in the order in which they came.
-/

namespace IndexAccess
namespace Node

open Entries

/-- A node after fields have been set in it one after the other. -/
def setAll (n : Node) (settings : List (Text × Node)) : Node :=
  settings.foldl (fun n field => set field.1 field.2 n) n

/-- A node after items have been added to it one after the other. -/
def addAll (n : Node) (items : List Node) : Node :=
  items.foldl (fun n item => add item n) n

theorem setAll_object (cell : Option Cell) {initial : List (Text × Node)}
    (hinitial : (keys initial).Nodup) (settings : List (Text × Node)) :
    (object cell initial).setAll settings =
      object cell (ofList (initial ++ settings)) := by
  induction settings using List.reverseRecOn with
  | nil =>
      rw [List.append_nil, ofList_of_nodup hinitial, setAll, List.foldl_nil]
  | append_singleton settings field ih =>
      have hset : (object cell initial).setAll (settings ++ [field]) =
          set field.1 field.2 ((object cell initial).setAll settings) :=
        List.foldl_concat _ _ _ _
      rw [hset, ih, ← List.append_assoc, ofList_concat, set]

theorem addAll_array (style : ArrayStyle) (cell : Option Cell)
    (items added : List Node) :
    (array style cell items).addAll added =
      array style cell (items ++ added) := by
  induction added generalizing items with
  | nil => rw [List.append_nil, addAll, List.foldl_nil]
  | cons item rest ih =>
      have hadd : (array style cell items).addAll (item :: rest) =
          (array style cell (items ++ [item])).addAll rest := rfl
      rw [hadd, ih, List.append_assoc, List.singleton_append]

/-- What an object tells of itself after a sequence of settings: its names,
what it holds under each of them and under any other, its size and its native
form. -/
structure HoldsFields (settings : List (Text × Node)) (n : Node) : Prop where
  fieldNames : n.fieldNames = (keys settings).eraseDups
  member_of_name : ∀ name item,
    n.member (.text name) = .ok (some item) ↔ LastPut settings name item
  member_of_other : ∀ name, n.member (.text name) = .ok none ↔
    name ∉ keys settings
  size : n.size = (keys settings).toFinset.card
  native : ∃ entries, n.native = .dict entries ∧
    List.Forall₂ (fun name entry =>
        ∃ item, LastPut settings name item ∧ entry = (.text name, item.native))
      n.fieldNames entries

/-- What an array tells of itself when it holds items: what stands at each of
their positions and at any other, its size, its native form and what it yields
one by one. -/
structure HoldsItems (items : List Node) (n : Node) : Prop where
  member_of_position : ∀ (i : Nat) (h : i < items.length),
    n.member (.integer i) = .ok (some items[i])
  member_of_other : ∀ i : Int, i < 0 ∨ items.length ≤ i →
    n.member (.integer i) = .ok none
  size : n.size = items.length
  native : n.native = .list (items.map native)
  members : (Value.node n).members = .ok (items.map .node)

theorem holdsFields_ofList (cell : Option Cell)
    (settings : List (Text × Node)) :
    HoldsFields settings (object cell (ofList settings)) := by
  have hmember (name : Text) :
      (object cell (ofList settings)).member (.text name) =
        .ok (get? (ofList settings) name) := rfl
  have hnames : (object cell (ofList settings)).fieldNames =
      (keys settings).eraseDups :=
    keys_ofList settings
  constructor
  · exact hnames
  · intro name item
    rw [hmember, Except.ok.injEq, get?_ofList_eq_some_iff]
  · intro name
    rw [hmember, Except.ok.injEq, get?_ofList_eq_none_iff]
  · exact length_ofList settings
  · refine ⟨_, congrArg Value.dict (nativeFields_eq_map (ofList settings)), ?_⟩
    rw [fieldNames, keys, List.forall₂_map_left_iff,
      List.forall₂_map_right_iff, List.forall₂_same]
    rintro ⟨name, item⟩ hmem
    exact ⟨item, mem_ofList_iff.1 hmem, rfl⟩

theorem holdsItems_array (style : ArrayStyle) (cell : Option Cell)
    (items : List Node) :
    HoldsItems items (array style cell items) := by
  have hmember (i : Int) :
      (array style cell items).member (.integer i) = .ok (itemAt? items i) :=
    rfl
  constructor
  · intro i hi
    rw [hmember, itemAt?_of_nonneg items (Int.natCast_nonneg i),
      Int.toNat_natCast, List.getElem?_eq_getElem hi]
  · intro i hi
    rw [hmember]
    by_cases hneg : i < 0
    · rw [itemAt?_of_neg items hneg]
    · have hlength : items.length ≤ i.toNat := by omega
      rw [itemAt?_of_nonneg items (Int.not_lt.1 hneg),
        List.getElem?_eq_none hlength]
  · rfl
  · exact congrArg Value.list (nativeItems_eq_map items)
  · rfl

/-- Two objects are equal if the same names have been set in them, and under
every name equal nodes last. -/
theorem same_object_ofList_iff (cell cell' : Option Cell)
    (settings settings' : List (Text × Node)) :
    (object cell (ofList settings) == object cell' (ofList settings')) = true ↔
      (∀ name, name ∈ keys settings ↔ name ∈ keys settings') ∧
      ∀ name a b, LastPut settings name a → LastPut settings' name b →
        (a == b) = true := by
  have hiff : (object cell (ofList settings)).same
      (object cell' (ofList settings')) = true ↔ _ :=
    same_object_iff (nodup_keys_ofList settings) (nodup_keys_ofList settings')
  simp only [mem_keys_ofList, get?_ofList_eq_some_iff] at hiff
  exact hiff

/-- Whatever an object held at first and whatever is set in it later, it holds
every name once, where the name first appeared, with the node that was set
last, and it is equal to another such object if both end with the same names
bound to equal nodes.  An array holds what it held at first and then what was
added, each at its position and nothing elsewhere. -/
theorem containers_follow_changes (cell cell' : Option Cell)
    (initial initial' : List (Text × Node)) (hinitial : (keys initial).Nodup)
    (hinitial' : (keys initial').Nodup)
    (settings settings' : List (Text × Node)) (style : ArrayStyle)
    (items added : List Node) :
    HoldsFields (initial ++ settings) ((object cell initial).setAll settings) ∧
    (((object cell initial).setAll settings ==
        (object cell' initial').setAll settings') =
        true ↔
      (∀ name, name ∈ keys (initial ++ settings) ↔
        name ∈ keys (initial' ++ settings')) ∧
      ∀ name a b, LastPut (initial ++ settings) name a →
        LastPut (initial' ++ settings') name b → (a == b) = true) ∧
    HoldsItems (items ++ added) ((array style cell items).addAll added) := by
  rw [setAll_object cell hinitial, setAll_object cell' hinitial', addAll_array]
  refine ⟨holdsFields_ofList cell _, ?_, holdsItems_array style cell _⟩
  exact same_object_ofList_iff cell cell' _ _

/-- A name that is replaced keeps its place, and the order in which names come
makes no difference to equality. -/
theorem containers_follow_changes_in_two_orders :
    let one : Node := .integer 1
    let two : Node := .integer 2
    let initial : List (Text × Node) := [("x", one), ("y", one)]
    let o := (object none initial).setAll [("z", one), ("x", two)]
    (keys initial).Nodup ∧
      o.fieldNames = ["x", "y", "z"] ∧ o.member (.text "x") = .ok (some two) ∧
      o.size = 3 ∧
      (o == (object none []).setAll [("z", two), ("x", two), ("y", one),
        ("z", one)]) = true ∧
      ((array .plain none [one]).addAll [two]).member
        (.integer 1) = .ok (some two) ∧
      ((array .plain none [one]).addAll [two]).member (.integer (-1)) =
        .ok none := by
  intro one two initial o
  have hinitial : (keys initial).Nodup := by decide
  have hempty : (keys ([] : List (Text × Node))).Nodup := by decide
  rcases containers_follow_changes none none initial [] hinitial hempty
    [("z", one), ("x", two)] [("z", two), ("x", two), ("y", one), ("z", one)]
    .plain [one] [two] with ⟨hobject, -, harray⟩
  refine ⟨hinitial, hobject.fieldNames, ?_, ?_, ?_, ?_, ?_⟩
  · exact (hobject.member_of_name "x" two).2 ⟨initial ++ [(("z" : Text), one)],
      [], rfl, by simp⟩
  · rw [hobject.size]
    decide
  · decide
  · exact harray.member_of_position 1 (by decide)
  · exact harray.member_of_other (-1) (.inl (by decide))

end Node
end IndexAccess
