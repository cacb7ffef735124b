import IndexAccess.Node.Members
import IndexAccess.Proofs.Node.Document

/-!
# Trees in which no object has a name twice

An object is a map from names to nodes, so that a name stands in it once.
Documents are read into trees of such objects, and adding to an array or
setting a field leads from such trees to such a tree.
-/

namespace IndexAccess
namespace Node

mutual

/-- Whether every object in a tree has every one of its names once. -/
def hasDistinctNames : Node → Bool
  | array _ _ items => itemsHaveDistinctNames items
  | object _ fields =>
    decide (Entries.keys fields).Nodup && fieldsHaveDistinctNames fields
  | _ => true

def itemsHaveDistinctNames : List Node → Bool
  | [] => true
  | item :: rest => hasDistinctNames item && itemsHaveDistinctNames rest

def fieldsHaveDistinctNames : List (Text × Node) → Bool
  | [] => true
  | (_, n) :: rest => hasDistinctNames n && fieldsHaveDistinctNames rest

end

@[elab_as_elim]
theorem induction {P : Node → Prop} (leaf : ∀ n : Node, n.isLeaf = true → P n)
    (array : ∀ style cell items, (∀ item ∈ items, P item) →
      P (array style cell items))
    (object : ∀ cell fields, (∀ name n, (name, n) ∈ fields → P n) →
      P (object cell fields)) :
    ∀ n, P n
  | .array style cell items =>
    array style cell items fun item _ => induction leaf array object item
  | .object cell fields =>
    object cell fields fun _ n _hmem => induction leaf array object n
  | .text _ | .integer _ | .number _ | .boolean _ | .null => leaf _ rfl
termination_by n => sizeOf n
decreasing_by
  · decreasing_trivial
  · have hlt := List.sizeOf_lt_of_mem _hmem
    simp only [Prod.mk.sizeOf_spec, Node.object.sizeOf_spec] at hlt ⊢
    omega

variable {style : ArrayStyle} {cell : Option Cell} {items : List Node}
  {fields : List (Text × Node)} {n : Node}

theorem hasDistinctNames_of_isLeaf (h : n.isLeaf = true) :
    n.hasDistinctNames = true := by
  cases n with
  | array | object => cases h
  | _ => rfl

theorem hasDistinctNames_array_iff :
    (array style cell items).hasDistinctNames = true ↔
      ∀ item ∈ items, item.hasDistinctNames = true := by
  rw [hasDistinctNames]
  induction items with
  | nil => simp [itemsHaveDistinctNames]
  | cons item rest ih => simp [itemsHaveDistinctNames, ih]

theorem fieldsHaveDistinctNames_iff :
    fieldsHaveDistinctNames fields = true ↔
      ∀ name n, (name, n) ∈ fields → n.hasDistinctNames = true := by
  induction fields with
  | nil => simp [fieldsHaveDistinctNames]
  | cons field rest ih =>
      obtain ⟨name, n⟩ := field
      rw [fieldsHaveDistinctNames, Bool.and_eq_true, ih]
      simp only [List.mem_cons, Prod.mk.injEq]
      constructor
      · rintro ⟨hfirst, hrest⟩ k m (⟨-, rfl⟩ | hmem)
        · exact hfirst
        · exact hrest k m hmem
      · intro h
        exact ⟨h name n (.inl ⟨rfl, rfl⟩), fun k m hmem => h k m (.inr hmem)⟩

theorem hasDistinctNames_object_iff :
    (object cell fields).hasDistinctNames = true ↔
      (Entries.keys fields).Nodup ∧ ∀ name n,
        (name, n) ∈ fields → n.hasDistinctNames = true := by
  rw [hasDistinctNames, Bool.and_eq_true, decide_eq_true_iff,
    fieldsHaveDistinctNames_iff]

section Changes

theorem hasDistinctNames_add {item : Node} (hn : n.hasDistinctNames = true)
    (hitem : item.hasDistinctNames = true) :
    (add item n).hasDistinctNames = true := by
  cases n with
  | array style cell items =>
      rw [add, hasDistinctNames_array_iff]
      intro other hother
      rcases List.mem_append.1 hother with hold | hnew
      · exact hasDistinctNames_array_iff.1 hn other hold
      · rwa [List.mem_singleton.1 hnew]
  | _ => exact hn

theorem hasDistinctNames_set {name : Text} {item : Node}
    (hn : n.hasDistinctNames = true) (hitem : item.hasDistinctNames = true) :
    (set name item n).hasDistinctNames = true := by
  cases n with
  | object cell fields =>
      obtain ⟨hnames, hfields⟩ := hasDistinctNames_object_iff.1 hn
      rw [set, hasDistinctNames_object_iff]
      refine ⟨Entries.nodup_keys_put name item hnames, ?_⟩
      intro k m hmem
      rcases Entries.mem_of_mem_put hmem with hold | ⟨-, rfl⟩
      · exact hfields k m hold
      · exact hitem
  | _ => exact hn

end Changes

theorem nativeItems_eq_map (items : List Node) :
    nativeItems items = items.map native := by
  induction items with
  | nil => rfl
  | cons item rest ih => rw [nativeItems, ih, List.map_cons]

theorem nativeFields_eq_map (fields : List (Text × Node)) :
    nativeFields fields = fields.map fun field =>
      (.text field.1, field.2.native) := by
  induction fields with
  | nil => rfl
  | cons field rest ih => rw [nativeFields, ih, List.map_cons]

variable {T : Text → Prop}

theorem isDocument_native_object
    (h : Json.IsDocument T (object cell fields).native) :
    (Entries.keys fields).Nodup ∧ ∀ name n,
      (name, n) ∈ fields → Json.IsDocument T n.native := by
  rw [native, nativeFields_eq_map] at h
  generalize hv : Value.dict _ = v at h
  cases h with
  | @dict entries hnodup _ hvalues =>
      have hinjective : Function.Injective fun entry : Text × Value =>
          (Value.text entry.1, entry.2) := by
        rintro ⟨name, value⟩ ⟨name', value'⟩ heq
        simpa using heq
      have hentries : fields.map (fun field => (field.1, field.2.native)) =
          entries := by
        apply List.map_injective_iff.2 hinjective
        rw [List.map_map]
        exact Value.dict.inj hv
      subst hentries
      constructor
      · simpa [Entries.keys, Function.comp_def] using hnodup
      · exact fun name n hmem => hvalues name _ (List.mem_map_of_mem hmem)
  | _ => cases hv

theorem hasDistinctNames_of_isDocument (n : Node) :
    Json.IsDocument T n.native → n.hasDistinctNames = true := by
  induction n using induction with
  | leaf n hleaf => exact fun _ => hasDistinctNames_of_isLeaf hleaf
  | array style cell items ih =>
      intro h
      rw [native, nativeItems_eq_map] at h
      rw [hasDistinctNames_array_iff]
      intro item hitem
      exact ih item hitem (h.items _ (List.mem_map_of_mem hitem))
  | object cell fields ih =>
      intro h
      obtain ⟨hnames, hvalues⟩ := isDocument_native_object h
      rw [hasDistinctNames_object_iff]
      exact ⟨hnames, fun name n hmem => ih name n hmem (hvalues name n hmem)⟩

/-- The tree that a document is read into. -/
theorem hasDistinctNames_of_readDocument {document : Text} {v : Value}
    (hread : Json.readDocument document = .ok v) (hn : ofValue v = .ok n) :
    n.hasDistinctNames = true := by
  have hdocument := Json.isDocument_of_readDocument hread
  apply hasDistinctNames_of_isDocument
  rwa [native_of_ofValue hdocument hn]

end Node
end IndexAccess
