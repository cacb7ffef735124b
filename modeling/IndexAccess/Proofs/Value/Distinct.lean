import IndexAccess.Proofs.Value.Comparable

/-!
# First occurrences of equal members

Where equality compares keys, keeping first occurrences leaves one member of
every class of equal ones, the first.  This is so for leaves and for the typed
values of scalars, of null and of leaves.  The proof adds one member at the
end: either a kept one represents it, or it is equal to nothing before it.
-/

namespace IndexAccess

section Occurrences

variable {α κ : Type} [BEq α] {members kept : List α} {key : α → κ}

/-- Of every class of equal members the first is kept, and no other. -/
structure IsDeduplicated (members kept : List α) : Prop where
  sublist : kept.Sublist members
  pairwise : kept.Pairwise fun a b => (a == b) = false
  represented : ∀ a ∈ members, ∃ first, members.find? (· == a) = some first ∧
    kept.filter (· == a) = [first]

/-- On these members equality compares keys. -/
def ComparesKeys (key : α → κ) (members : List α) : Prop :=
  ∀ a ∈ members, ∀ b ∈ members, (a == b) = true ↔ key a = key b

theorem ComparesKeys.subset {others : List α} (h : ComparesKeys key members)
    (hsubset : others ⊆ members) : ComparesKeys key others :=
  fun a ha b hb => h a (hsubset ha) b (hsubset hb)

section Equivalence

variable {a b : α} (h : ComparesKeys key members) (ha : a ∈ members)
  (hb : b ∈ members)
include h ha hb

theorem ComparesKeys.beq_comm : (a == b) = (b == a) := by
  rw [Bool.eq_iff_iff, h a ha b hb, h b hb a ha, eq_comm]

theorem ComparesKeys.beq_congr (hab : (a == b) = true) :
    ∀ x ∈ members, (x == a) = (x == b) := by
  intro x hx
  rw [Bool.eq_iff_iff, h x hx a ha, h x hx b hb, (h a ha b hb).1 hab]

end Equivalence

/-- A member that is equal to a kept one is represented by what represents that
one. -/
theorem IsDeduplicated.concat_of_beq {a k : α}
    (h : IsDeduplicated members kept)
    (hkeys : ComparesKeys key (members ++ [a])) (hk : k ∈ kept)
    (hka : (k == a) = true) :
    IsDeduplicated (members ++ [a]) kept := by
  have hkmem : k ∈ members := h.sublist.subset hk
  have hsame : ∀ x ∈ members, (x == k) = (x == a) := fun x hx =>
    hkeys.beq_congr (List.mem_append_left _ hkmem) List.mem_concat_self hka x
      (List.mem_append_left _ hx)
  refine ⟨h.sublist.trans (List.sublist_append_left _ _), h.pairwise, ?_⟩
  intro b hb
  rcases List.mem_append.1 hb with hb | hb
  · obtain ⟨first, hfind, hfilter⟩ := h.represented b hb
    exact ⟨first, by rw [List.find?_append, hfind, Option.some_or], hfilter⟩
  · obtain rfl := List.mem_singleton.1 hb
    obtain ⟨first, hfind, hfilter⟩ := h.represented k hkmem
    refine ⟨first, ?_, ?_⟩
    · rw [List.find?_append, ← List.find?_congr hsame, hfind, Option.some_or]
    · rw [← hfilter]
      exact List.filter_congr fun x hx => (hsame x (h.sublist.subset hx)).symm

/-- What is equal to no kept member is equal to no member: what represents that
one would be equal to it. -/
theorem IsDeduplicated.beq_eq_false {a x : α} (h : IsDeduplicated members kept)
    (hkeys : ComparesKeys key (members ++ [a]))
    (hnone : ∀ k ∈ kept, (k == a) = false) (hx : x ∈ members) :
    (x == a) = false := by
  obtain ⟨first, -, hfilter⟩ := h.represented x hx
  obtain ⟨hfirst, hfirstx⟩ : first ∈ kept ∧ (first == x) = true :=
    List.mem_filter.1 (hfilter ▸ List.mem_singleton_self first)
  have hfirst' : first ∈ members ++ [a] :=
    List.mem_append_left _ (h.sublist.subset hfirst)
  have hx' : x ∈ members ++ [a] := List.mem_append_left _ hx
  have ha : a ∈ members ++ [a] := List.mem_concat_self
  rw [hkeys.beq_comm hx' ha, ← hkeys.beq_congr hfirst' hx' hfirstx a ha,
    hkeys.beq_comm ha hfirst', hnone first hfirst]

/-- A member that is equal to no kept one represents itself and nothing before
it. -/
theorem IsDeduplicated.concat_of_ne {a : α} (h : IsDeduplicated members kept)
    (hkeys : ComparesKeys key (members ++ [a]))
    (hnone : ∀ k ∈ kept, (k == a) = false) :
    IsDeduplicated (members ++ [a]) (kept ++ [a]) := by
  have ha : a ∈ members ++ [a] := List.mem_concat_self
  have hself : (a == a) = true := (hkeys a ha a ha).2 rfl
  refine ⟨h.sublist.append_right [a], ?_, ?_⟩
  · rw [List.pairwise_append]
    refine ⟨h.pairwise, List.pairwise_singleton _ a, fun k hk b hb => ?_⟩
    rw [List.mem_singleton.1 hb]
    exact hnone k hk
  · intro b hb
    rcases List.mem_append.1 hb with hbefore | hlast
    · obtain ⟨first, hfind, hfilter⟩ := h.represented b hbefore
      have hab : (a == b) = false := by
        rw [hkeys.beq_comm ha hb, h.beq_eq_false hkeys hnone hbefore]
      refine ⟨first, by rw [List.find?_append, hfind, Option.some_or], ?_⟩
      rw [List.filter_append, hfilter]
      simp [hab]
    · obtain rfl := List.mem_singleton.1 hlast
      have hfind : members.find? (· == b) = none :=
        List.find?_eq_none.2 fun x hx => by
          simp [h.beq_eq_false hkeys hnone hx]
      have hfilter : kept.filter (· == b) = [] :=
        List.filter_eq_nil_iff.2 fun k hk => by simp [hnone k hk]
      refine ⟨b, ?_, ?_⟩
      · rw [List.find?_append, hfind]
        simp [hself]
      · rw [List.filter_append, hfilter]
        simp [hself]

theorem mem_keepFirst {a b : α} (h : b ∈ keepFirst kept a) :
    b ∈ kept ∨ b = a := by
  unfold keepFirst at h
  split at h
  · exact .inl h
  · simpa using h

theorem firstOccurrences_concat (members : List α) (a : α) :
    firstOccurrences (members ++ [a]) =
      keepFirst (firstOccurrences members) a := by
  rw [firstOccurrences, List.foldl_append]
  rfl

theorem isDeduplicated_firstOccurrences (hkeys : ComparesKeys key members) :
    IsDeduplicated members (firstOccurrences members) := by
  induction members using List.reverseRecOn with
  | nil => exact ⟨.refl _, .nil, nofun⟩
  | append_singleton members a ih =>
      have hrest := ih (hkeys.subset (List.subset_append_left _ _))
      rw [firstOccurrences_concat, keepFirst]
      split
      next hany =>
        obtain ⟨k, hk, hka⟩ := List.any_eq_true.1 hany
        exact hrest.concat_of_beq hkeys hk hka
      next hany =>
        exact hrest.concat_of_ne hkeys (by simpa using hany)

theorem firstOccurrences_map {β : Type} [BEq β] {f : α → β}
    (hf : ∀ a b, (f a == f b) = (a == b)) (members : List α) :
    firstOccurrences (members.map f) = (firstOccurrences members).map f := by
  induction members using List.reverseRecOn with
  | nil => rfl
  | append_singleton members a ih =>
      rw [List.map_append, List.map_singleton, firstOccurrences_concat,
        firstOccurrences_concat, ih, keepFirst, keepFirst, List.any_map]
      simp only [Function.comp_def, hf]
      split
      · rfl
      · rw [List.map_append, List.map_singleton]

end Occurrences

section Supplied

variable {α κ : Type} {content : α → Value} {members : List α}

theorem findSome?_unhashable?
    (h : ∀ a ∈ members, (content a).isComparable = true) :
    members.findSome? (fun a => (content a).unhashable?) =
      (members.findSome? fun a => (content a).container?).map
        Node.classOf := by
  induction members with
  | nil => rfl
  | cons a rest ih =>
      have hrest := ih fun b hb => h b (.tail _ hb)
      rw [List.findSome?_cons, List.findSome?_cons,
        Value.unhashable?_of_isComparable (h a (by simp))]
      cases (content a).container? with
      | some n => rfl
      | none => exact hrest

variable [BEq α]

/-- The first member that is not fixed decides, if there is one. -/
theorem distinctMembers_eq (content : α → Value) (members : List α) :
    distinctMembers content (members.map .ok) =
      match members.findSome? fun a => (content a).unhashable? with
      | some type => .error (.value (.unhashable type))
      | none => .ok (firstOccurrences members) := by
  have hfold : ∀ kept : List α,
      (members.map .ok).foldlM (keepSupplied content) kept =
      match members.findSome? fun a => (content a).unhashable? with
      | some type => .error (.value (.unhashable type))
      | none => .ok (members.foldl keepFirst kept) := by
    induction members with
    | nil => exact fun kept => rfl
    | cons a rest ih =>
        intro kept
        rw [List.map_cons, List.foldlM_cons, List.findSome?_cons]
        cases ha : (content a).unhashable? with
        | some type =>
            rw [keepSupplied_error kept ha]
            rfl
        | none =>
            rw [keepSupplied_ok kept ha]
            exact ih _
  exact hfold []

/-- A failure at the first container, and otherwise the members without
duplicates. -/
structure Deduplicates (content : α → Value) (members : List α)
    (result : Except Failure (List α)) : Prop where
  fails : ∀ n, members.findSome? (fun a => (content a).container?) = some n →
    result = .error (.value (.unhashable n.classOf))
  succeeds : members.findSome? (fun a => (content a).container?) = none →
    ∃ kept, result = .ok kept ∧ IsDeduplicated members kept

theorem deduplicates_distinctMembers {key : α → κ}
    (hcomparable : ∀ a ∈ members, (content a).isComparable = true)
    (hkeys : (∀ a ∈ members, (content a).container? = none) →
      ComparesKeys key members) :
    Deduplicates content members
      (distinctMembers content (members.map .ok)) := by
  rw [distinctMembers_eq, findSome?_unhashable? hcomparable]
  constructor
  · intro n hn
    rw [hn]
    rfl
  · intro hnone
    rw [hnone]
    exact ⟨_, rfl, isDeduplicated_firstOccurrences
      (hkeys (List.findSome?_eq_none_iff.1 hnone))⟩

end Supplied

theorem comparesKeys_node {nodes : List Node}
    (hfixed : ∀ n ∈ nodes, (Value.node n).container? = none) :
    ComparesKeys (fun n => (Value.node n).key?) nodes := by
  intro a ha b hb
  have hnode : (Value.node a).same (.node b) = a.same b := rfl
  rw [← Value.same_iff_key?_eq rfl (hfixed a ha) rfl (hfixed b hb), hnode]
  rfl

theorem comparesKeys_typedValue {members : List TypedValue}
    (hcomparable : ∀ t ∈ members, t.value.isComparable = true)
    (hfixed : ∀ t ∈ members, t.value.container? = none) :
    ComparesKeys (fun t => (t.value.key?, t.tag)) members := by
  intro t ht u hu
  rw [Prod.mk.injEq, ← Value.same_iff_key?_eq (hcomparable t ht) (hfixed t ht)
    (hcomparable u hu) (hfixed u hu)]
  exact TypedValue.same_iff

/-- Nodes are told apart in the same way when they are taken for values. -/
theorem distinct_node (nodes : List Node) :
    Value.distinct (nodes.map fun n => .ok (.node n)) =
      (distinctMembers Value.node (nodes.map .ok)).map (List.map .node) := by
  have hmap : nodes.map (fun n => .ok (.node n)) =
      (nodes.map Value.node).map (.ok : Value → Except Failure Value) := by
    rw [List.map_map]
    rfl
  rw [Value.distinct, hmap, distinctMembers_eq, distinctMembers_eq,
    List.findSome?_map, firstOccurrences_map (f := Value.node) fun _ _ => rfl]
  simp only [Function.comp_def, id_eq]
  split <;> rfl

end IndexAccess
