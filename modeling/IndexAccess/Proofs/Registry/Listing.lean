import IndexAccess.Proofs.Entries
import IndexAccess.Proofs.Registry.History

/-!
# Listings of registries

A listing has an entry for every name of a registered accessor.  Accessors are
told apart by their identities and not by their names, so that those of one
name share an entry: it stands where the first of them was registered, and it
describes the last.  Nobody is lost exactly where the names are all different.
-/

namespace IndexAccess

theorem Accessor.summary_eq (a : Accessor) :
    a.summary = "[" ++ (if a.targets = [] then "*" else
      ", ".intercalate (a.targets.map Class.name)) ++ "] " ++
        a.description := by
  simp only [summary, shownTargets, List.isEmpty_iff]
  rfl

namespace Registry

variable (r : Registry)

theorem keys_listing : Entries.keys r.listing =
    (r.accessors.map (·.name)).eraseDups := by
  rw [listing, Entries.keys_ofList, Entries.keys, List.map_map]
  rfl

theorem listing_of_nodup (h : (r.accessors.map (·.name)).Nodup) :
    r.listing = r.accessors.map fun a => (a.name, a.summary) := by
  apply Entries.ofList_of_nodup
  rw [Entries.keys, List.map_map]
  exact h

theorem length_listing_iff :
    r.listing.length = r.size ↔ (r.accessors.map (·.name)).Nodup := by
  have hsize : r.size = (r.accessors.map fun a =>
      (a.name, a.summary)).length := by
    rw [List.length_map, size]
  rw [hsize, listing, Entries.length_ofList_eq_iff, Entries.keys, List.map_map]
  rfl

/-- The entry of a name is that of the accessor which was registered last under
it. -/
theorem mem_listing_iff {name text : String} :
    (name, text) ∈ r.listing ↔
      ∃ earlier a later, r.accessors = earlier ++ a :: later ∧ a.name = name ∧
        a.summary = text ∧ ∀ b ∈ later, b.name ≠ name := by
  rw [listing, Entries.mem_ofList_iff, Entries.lastPut_map_iff]
  simp only [Prod.mk.injEq, and_assoc]

end Registry
end IndexAccess
