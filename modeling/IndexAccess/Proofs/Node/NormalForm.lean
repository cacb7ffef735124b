import IndexAccess.Node.Native
import IndexAccess.Proofs.Json.Document

/-!
# Normal forms of values

In its normal form a value holds no tuples, no read-only mappings and no nodes:
tuples are lists, mappings are dictionaries with the same keys in the same
order, and a node is its native form.  Scalars stay what they are.  A value
that has a node comes back from it in normal form, and the values that
documents hold are in normal form already.
-/

namespace IndexAccess

open Json

namespace Value

mutual

def normalForm : Value → Value
  | list items | tuple items => list (normalItems items)
  | dict entries | mapping entries => dict (normalEntries entries)
  | node n => n.native
  | v => v

def normalItems : List Value → List Value
  | [] => []
  | item :: rest => normalForm item :: normalItems rest

def normalEntries : List (Value × Value) → List (Value × Value)
  | [] => []
  | (key, item) :: rest => (key, normalForm item) :: normalEntries rest

end

theorem normalItems_eq_self {items : List Value}
    (h : ∀ item ∈ items, item.normalForm = item) :
    normalItems items = items := by
  induction items with
  | nil => rfl
  | cons item rest ih =>
      rw [normalItems, h item (by simp), ih fun other hother =>
        h other (List.mem_cons_of_mem item hother)]

theorem normalEntries_eq_self {entries : List (Value × Value)}
    (h : ∀ entry ∈ entries, entry.2.normalForm = entry.2) :
    normalEntries entries = entries := by
  induction entries with
  | nil => rfl
  | cons entry rest ih =>
      obtain ⟨key, item⟩ := entry
      rw [normalEntries, h (key, item) (by simp), ih fun other hother =>
        h other (List.mem_cons_of_mem _ hother)]

theorem normalForm_of_isDocument {T : Text → Prop} {v : Value}
    (hv : IsDocument T v) :
    v.normalForm = v := by
  induction hv with
  | null | boolean | integer | number | text => rfl
  | list _ ih => rw [normalForm, normalItems_eq_self ih]
  | dict _ _ _ ih =>
      rw [dictValue, normalForm, normalEntries_eq_self]
      intro entry hentry
      obtain ⟨⟨name, item⟩, hmem, rfl⟩ := List.mem_map.1 hentry
      exact ih name item hmem

end Value

namespace Node

theorem eq_text_of_fieldName {key : Value} {name : Text}
    (h : fieldName key = .ok name) :
    key = .text name := by
  unfold fieldName at h
  split at h
  next => rw [Except.ok.inj h]
  next =>
    obtain ⟨shown, -, h⟩ := ok_of_bind_eq_ok h
    cases h

-- A node is built along the recursion of the normal form, so that the three
-- statements below go together, one for each of the functions that build it.
mutual

/-- The node of a value stands for the normal form of the value. -/
theorem native_eq_normalForm :
    ∀ {v : Value} {n : Node}, ofValue v = .ok n → n.native = v.normalForm
  | .node n, _, h | .null, n, h | .boolean _, n, h | .integer _, n,
    h | .text _, n, h => by
    obtain rfl := Except.ok.inj h
    rfl
  | .number x, n, h => by
    cases x with
    | finite x =>
        obtain rfl := Except.ok.inj h
        rfl
    | infinite | nan => cases h
  | .list items, n, h | .tuple items, n, h => by
    rw [ofValue] at h
    obtain ⟨nodes, hnodes, h⟩ := ok_of_bind_eq_ok h
    obtain rfl := Except.ok.inj h
    rw [native, Value.normalForm, nativeItems_eq_normalItems hnodes]
  | .dict entries, n, h | .mapping entries, n, h => by
    rw [ofValue] at h
    obtain ⟨fields, hfields, h⟩ := ok_of_bind_eq_ok h
    obtain rfl := Except.ok.inj h
    rw [native, Value.normalForm, nativeFields_eq_normalEntries hfields]
  | .bytes _, n, h | .foreign _, n, h => by cases h

theorem nativeItems_eq_normalItems :
    ∀ {items : List Value} {nodes : List Node}, ofItems items = .ok nodes →
      nativeItems nodes = Value.normalItems items
  | [], nodes, h => by
    obtain rfl := Except.ok.inj h
    rfl
  | item :: rest, nodes, h => by
    rw [ofItems] at h
    obtain ⟨n, hn, h⟩ := ok_of_bind_eq_ok h
    obtain ⟨others, hothers, h⟩ := ok_of_bind_eq_ok h
    obtain rfl := Except.ok.inj h
    rw [nativeItems, Value.normalItems, native_eq_normalForm hn,
      nativeItems_eq_normalItems hothers]

theorem nativeFields_eq_normalEntries :
    ∀ {entries : List (Value × Value)} {fields : List (Text × Node)},
      ofEntries entries = .ok fields →
      nativeFields fields = Value.normalEntries entries
  | [], fields, h => by
    obtain rfl := Except.ok.inj h
    rfl
  | (key, item) :: rest, fields, h => by
    rw [ofEntries] at h
    obtain ⟨name, hname, h⟩ := ok_of_bind_eq_ok h
    obtain ⟨n, hn, h⟩ := ok_of_bind_eq_ok h
    obtain ⟨others, hothers, h⟩ := ok_of_bind_eq_ok h
    obtain rfl := Except.ok.inj h
    rw [eq_text_of_fieldName hname, nativeFields, Value.normalEntries,
      native_eq_normalForm hn, nativeFields_eq_normalEntries hothers]

end

end Node
end IndexAccess
