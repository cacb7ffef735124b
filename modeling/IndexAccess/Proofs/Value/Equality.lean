import IndexAccess.Proofs.Node.DistinctNames
import IndexAccess.Proofs.Node.Equality

/-!
# Equality of values, container by container

Two lists are the same when their items are, position by position, and two
dictionaries of one size when every entry of the first has an equal one in the
second.  Nodes that are the same therefore stand for values that are the same,
while values of different classes may be the same and stand in nodes that are
not.
-/

namespace IndexAccess
namespace Value

theorem sameItems_iff {as bs : List Value} :
    sameItems as bs = true ↔
      List.Forall₂ (fun a b => a.same b = true) as bs := by
  induction as generalizing bs with
  | nil => cases bs <;> simp [sameItems]
  | cons a as ih => cases bs <;> simp [sameItems, ih]

theorem same_dict (as bs : List (Value × Value)) :
    (dict as).same (dict bs) = (as.length == bs.length && sameEntries as bs) :=
  rfl

theorem sameEntries_iff {entries others : List (Value × Value)} :
    sameEntries entries others = true ↔
      ∀ entry ∈ entries, ∃ other ∈ others,
        entry.1.same other.1 = true ∧ entry.2.same other.2 = true := by
  induction entries with
  | nil => simp [sameEntries]
  | cons entry rest ih =>
      rw [sameEntries, Bool.and_eq_true, ih, List.forall_mem_cons,
        List.any_eq_true]
      simp only [Bool.and_eq_true]

end Value

namespace Node

theorem same_native_of_isLeaf {a b : Node} (hleaf : a.isLeaf = true)
    (h : a.same b = true) :
    a.native.same b.native = true := by
  cases a with
  | array | object => cases hleaf
  | boolean x =>
      cases b with
      | boolean y =>
          obtain rfl : x = y := by simpa [same] using h
          simp [native, Value.same, Value.samePlain, Value.numeric?,
            Numeric.same]
      | _ => cases h
  | null =>
      cases b with
      | null => rfl
      | _ => cases h
  | _ =>
      cases b <;> first | exact h | cases h

/-- Nodes that are the same stand for values that are the same. -/
theorem same_native (a : Node) :
    ∀ b : Node, a.same b = true → a.native.same b.native = true := by
  induction a using induction with
  | leaf a hleaf => exact fun b h => same_native_of_isLeaf hleaf h
  | array style cell as ih =>
      intro b h
      cases b with
      | array style' cell' bs =>
          rw [same, sameItems_iff] at h
          rw [native, native, Value.same, Value.sameItems_iff,
            nativeItems_eq_map, nativeItems_eq_map, List.forall₂_map_left_iff,
            List.forall₂_map_right_iff]
          induction h with
          | nil => exact .nil
          | cons hfirst _ ihrest =>
              refine .cons (ih _ List.mem_cons_self _ hfirst)
                (ihrest fun item hitem => ?_)
              exact ih item (List.mem_cons_of_mem _ hitem)
      | _ => cases h
  | object cell as ih =>
      intro b h
      cases b with
      | object cell' bs =>
          rw [same, Bool.and_eq_true, sameFields_iff] at h
          obtain ⟨hlength, hfields⟩ := h
          rw [native, native, nativeFields_eq_map, nativeFields_eq_map,
            Value.same_dict, List.length_map, List.length_map, hlength,
            Bool.true_and, Value.sameEntries_iff]
          intro entry hentry
          obtain ⟨⟨name, n⟩, hmem, rfl⟩ := List.mem_map.1 hentry
          obtain ⟨m, hm, hsame⟩ := hfields name n hmem
          have hname : (Value.text name).same (.text name) = true := by
            simp [Value.same, Value.samePlain, Value.numeric?]
          exact ⟨_, List.mem_map_of_mem (Entries.mem_of_get? hm), hname,
            ih name n hmem m hsame⟩
      | _ => cases h

end Node
end IndexAccess
