import IndexAccess.Context
import IndexAccess.Proofs.Outcome

/-!
# Single calls of a registry

A registry adds a new accessor at the end and refuses one that it holds, and
whatever is no accessor.  It removes the accessor that it holds under an
identity and no other, and removing what it does not hold changes nothing.
-/

namespace IndexAccess
namespace Registry

def identities (r : Registry) : List Identity :=
  r.accessors.map (·.identity)

/-- The registry with one more accessor, the last one. -/
def extended (r : Registry) (a : Accessor) : Registry :=
  ⟨r.accessors ++ [a]⟩

/-- The registry without the accessors of an identity. -/
def without (r : Registry) (identity : Identity) : Registry :=
  ⟨r.accessors.filter (·.identity != identity)⟩

theorem holds_iff {r : Registry} {identity : Identity} :
    r.holds identity = true ↔ identity ∈ r.identities := by
  simp [holds, identities]

theorem mem_identities {r : Registry} {a : Accessor} (h : a ∈ r.accessors) :
    a.identity ∈ r.identities :=
  List.mem_map_of_mem h

/-- Of two registered accessors with one identity both are the same. -/
theorem eq_of_identity_eq {r : Registry} (hr : r.identities.Nodup)
    {a b : Accessor} (ha : a ∈ r.accessors) (hb : b ∈ r.accessors)
    (h : a.identity = b.identity) : a = b :=
  List.inj_on_of_nodup_map hr ha hb h

theorem without_of_not_mem {r : Registry} {identity : Identity}
    (h : identity ∉ r.identities) : r.without identity = r := by
  have hkept : ∀ a ∈ r.accessors, (a.identity != identity) = true := by
    intro a ha
    rw [bne_iff_ne]
    intro heq
    exact h (heq ▸ mem_identities ha)
  rw [without, List.filter_eq_self.2 hkept]

/-- Where identities are distinct, what is removed first is all there is to
remove. -/
theorem eraseP_eq_without {r : Registry} (hr : r.identities.Nodup)
    (identity : Identity) :
    (⟨r.accessors.eraseP (·.identity == identity)⟩ : Registry) =
      r.without identity := by
  rcases r with ⟨accessors⟩
  induction accessors with
  | nil => rfl
  | cons a rest ih =>
      have hparts := List.nodup_cons.1 hr
      by_cases h : a.identity = identity
      · have hnone : identity ∉ identities ⟨rest⟩ := by
          rw [← h]
          exact hparts.1
        have hrest := congrArg accessors (without_of_not_mem hnone)
        simpa [without, h] using hrest.symm
      · have htail := congrArg accessors (ih hparts.2)
        simpa [without, h] using htail

theorem size_without_add_one {r : Registry} (hr : r.identities.Nodup)
    {identity : Identity} (h : identity ∈ r.identities) :
    (r.without identity).size + 1 = r.size := by
  rcases List.mem_map.1 h with ⟨a, ha, heq⟩
  have hpos : 0 < r.accessors.length := List.length_pos_of_mem ha
  have hlength : (r.accessors.eraseP (·.identity == identity)).length =
      r.accessors.length - 1 :=
    List.length_eraseP_of_mem ha (beq_iff_eq.2 heq)
  rw [← eraseP_eq_without hr, size, size, hlength]
  omega

section Calls

variable (r : Registry)

theorem register_of_mem {a : Accessor} (h : a.identity ∈ r.identities) :
    (register (.accessor a)).result r =
      (.error (.value (.duplicateAccessor a.name)), r) := by
  rw [register, Procedure.get_bind_result, if_pos (holds_iff.2 h)]
  rfl

theorem register_of_not_mem {a : Accessor} (h : a.identity ∉ r.identities) :
    (register (.accessor a)).result r = (.ok (), r.extended a) := by
  rw [register, Procedure.get_bind_result, if_neg (holds_iff.not.2 h)]
  rfl

theorem unregister_of_mem {a : Accessor} (hr : r.identities.Nodup)
    (h : a.identity ∈ r.identities) :
    (unregister (.accessor a)).result r =
      (.ok true, r.without a.identity) := by
  rw [unregister, Procedure.get_bind_result, if_pos (holds_iff.2 h),
    ← eraseP_eq_without hr]
  rfl

theorem unregister_of_not_mem {a : Accessor} (h : a.identity ∉ r.identities) :
    (unregister (.accessor a)).result r = (.ok false, r) := by
  rw [unregister, Procedure.get_bind_result, if_neg (holds_iff.not.2 h)]
  rfl

/-- Removing an accessor that has just been added gives the registry back. -/
theorem unregister_extended {a : Accessor} (h : a.identity ∉ r.identities) :
    (unregister (.accessor a)).result (r.extended a) = (.ok true, r) := by
  have hmem : (r.extended a).holds a.identity = true := by
    simp [holds, extended]
  have hother : ∀ b ∈ r.accessors, ¬(b.identity == a.identity) = true := by
    intro b hb heq
    exact h (beq_iff_eq.1 heq ▸ mem_identities hb)
  have herase : (r.extended a).accessors.eraseP (·.identity == a.identity) =
      r.accessors := by
    simp [extended, List.eraseP_append_right _ hother]
  have hrest : (⟨(r.extended a).accessors.eraseP (·.identity == a.identity)⟩
      : Registry) = r := by
    rw [herase]
  rw [unregister, Procedure.get_bind_result, if_pos hmem]
  exact Prod.ext rfl hrest

end Calls

section Identities

variable {r : Registry}

theorem identities_extended (a : Accessor) :
    (r.extended a).identities = r.identities ++ [a.identity] := by
  simp [identities, extended]

theorem nodup_identities_extended {a : Accessor} (hr : r.identities.Nodup)
    (h : a.identity ∉ r.identities) : (r.extended a).identities.Nodup := by
  rw [identities_extended, List.nodup_append_comm]
  exact List.nodup_cons.2 ⟨h, hr⟩

theorem nodup_identities_without (hr : r.identities.Nodup)
    (identity : Identity) :
    (r.without identity).identities.Nodup :=
  hr.sublist (List.filter_sublist.map _)

end Identities

end Registry

namespace Context

theorem onRegistry_result {α : Type} (p : Procedure Registry α) (c : Context) :
    (onRegistry p).result c =
      ((p.result c.registry).1,
        { c with registry := (p.result c.registry).2 }) := rfl

end Context
end IndexAccess
