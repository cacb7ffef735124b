import IndexAccess.Proofs.Entries
import IndexAccess.Value.Equality
import Mathlib.Data.List.Perm.Subperm

/-!
# Equality of nodes, container by container

Two arrays are the same when their items are, position by position.  Two
objects of one size are the same when every field of the first has an equal one
of its name in the second; where names stand once this may be checked field by
field, in order, and says that the names are the same and the nodes under each
of them.
-/

namespace IndexAccess
namespace Node

theorem same_self_of_isLeaf {n : Node} (h : n.isLeaf = true) :
    n.same n = true := by
  cases n with
  | text | integer | boolean => simp [same]
  | number x => exact x.sameNumber_refl
  | null => rfl
  | array | object => simp [isLeaf, isContainer] at h

theorem sameItems_iff {as bs : List Node} :
    sameItems as bs = true ↔
      List.Forall₂ (fun a b => a.same b = true) as bs := by
  induction as generalizing bs with
  | nil => cases bs <;> simp [sameItems]
  | cons a as ih => cases bs <;> simp [sameItems, ih]

theorem sameFields_cons {name : Text} {a : Node}
    {rest others : List (Text × Node)} :
    sameFields ((name, a) :: rest) others = true ↔
      (∃ b, Entries.get? others name = some b ∧ a.same b = true) ∧
        sameFields rest others = true := by
  rw [sameFields]
  cases Entries.get? others name <;> simp

theorem sameFields_iff {fields others : List (Text × Node)} :
    sameFields fields others = true ↔
      ∀ name a, (name, a) ∈ fields →
        ∃ b, Entries.get? others name = some b ∧ a.same b = true := by
  induction fields with
  | nil => simp [sameFields]
  | cons field rest ih =>
      rcases field with ⟨name, a⟩
      rw [sameFields_cons, ih]
      simp only [List.mem_cons, Prod.mk.injEq]
      constructor
      · rintro ⟨hfirst, hrest⟩ k n (⟨rfl, rfl⟩ | hmem)
        · exact hfirst
        · exact hrest k n hmem
      · intro h
        exact ⟨h name a (.inl ⟨rfl, rfl⟩), fun k n hmem => h k n (.inr hmem)⟩

section Objects

variable {as bs : List (Text × Node)}

theorem keys_perm_of_subset (has : (Entries.keys as).Nodup)
    (hsubset : Entries.keys as ⊆ Entries.keys bs)
    (hlength : bs.length ≤ as.length) :
    (Entries.keys as).Perm (Entries.keys bs) := by
  apply (has.subperm hsubset).perm_of_length_le
  simpa [Entries.keys] using hlength

/-- Objects in which every name stands once are the same if they have the same
names, and under each of them the same node. -/
theorem same_object_iff {cell cell' : Option Cell}
    (has : (Entries.keys as).Nodup) (hbs : (Entries.keys bs).Nodup) :
    (object cell as).same (object cell' bs) = true ↔
      (∀ name, name ∈ Entries.keys as ↔ name ∈ Entries.keys bs) ∧
      ∀ name a b, Entries.get? as name = some a →
        Entries.get? bs name = some b →
        a.same b = true := by
  rw [same, Bool.and_eq_true, beq_iff_eq, sameFields_iff]
  constructor
  · rintro ⟨hlength, hfields⟩
    have hsubset : Entries.keys as ⊆ Entries.keys bs := by
      intro k hk
      rcases List.mem_map.1 hk with ⟨⟨_, a⟩, ha, rfl⟩
      rcases hfields _ a ha with ⟨b, hb, -⟩
      exact Entries.mem_keys_of_mem (Entries.mem_of_get? hb)
    have hperm := keys_perm_of_subset has hsubset (Nat.le_of_eq hlength.symm)
    refine ⟨fun name => hperm.mem_iff, ?_⟩
    intro name a b ha hb
    rcases hfields name a (Entries.mem_of_get? ha) with ⟨c, hc, hsame⟩
    rwa [Option.some.inj (hb.symm.trans hc)]
  · rintro ⟨hnames, hnodes⟩
    have hperm := (List.perm_ext_iff_of_nodup has hbs).2 hnames
    refine ⟨by simpa [Entries.keys] using hperm.length_eq, ?_⟩
    intro name a hmem
    have hname : name ∈ Entries.keys bs := by
      rw [← hnames]
      exact Entries.mem_keys_of_mem hmem
    rcases Entries.exists_get?_of_mem_keys hname with ⟨b, hb⟩
    exact ⟨b, hb, hnodes name a b (Entries.get?_of_mem has hmem) hb⟩

end Objects

section Changes

variable (f g : Node → Node)

theorem sameItems_map {items : List Node}
    (h : ∀ item ∈ items, (f item).same (g item) = true) :
    sameItems (items.map f) (items.map g) = true := by
  rw [sameItems_iff, List.forall₂_map_left_iff, List.forall₂_map_right_iff,
    List.forall₂_same]
  exact h

/-- Fields that are changed one by one, with distinct names, agree if each of
them does. -/
theorem sameFields_map {fields : List (Text × Node)}
    (hnames : (Entries.keys fields).Nodup)
    (h : ∀ name n, (name, n) ∈ fields → (f n).same (g n) = true) :
    sameFields (fields.map fun field => (field.1, f field.2))
      (fields.map fun field => (field.1, g field.2)) = true := by
  rw [sameFields_iff]
  intro name a hmem
  rcases List.mem_map.1 hmem with ⟨⟨_, n⟩, hfield, heq⟩
  cases heq
  refine ⟨g n, ?_, h _ n hfield⟩
  rw [Entries.get?_map, Entries.get?_of_mem hnames hfield]
  rfl

end Changes

end Node
end IndexAccess
