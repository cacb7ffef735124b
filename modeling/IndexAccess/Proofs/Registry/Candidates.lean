import IndexAccess.Accessor.Scripted
import IndexAccess.Proofs.Registry.Operations

/-!
# The accessors to try, by rank

An accessor that names the class of a target has rank 0 for it, one that names
only a proper superclass rank 1, and one that names no class at all rank 2.
The accessors to try are the registered accessors of some rank, sorted by rank,
and those of one rank stay in registration order.  A further accessor therefore
goes behind all those of its rank, and one that is removed leaves the others
where they are.
-/

namespace IndexAccess

theorem Class.isUnder_iff {c d : Class} :
    c.isUnder d = true ↔ c = d ∨ d ∈ c.ancestors := by
  simp [isUnder]

namespace Accessor

inductive HasRank (a : Accessor) (type : Class) : Nat → Prop
  | exact (h : type ∈ a.targets) : HasRank a type 0
  | inherited {superclass : Class} (hexact : type ∉ a.targets)
      (htarget : superclass ∈ a.targets)
        (habove : superclass ∈ type.ancestors) :
      HasRank a type 1
  | general (h : a.targets = []) : HasRank a type 2

theorem rank?_of_hasRank {a : Accessor} {type : Class} {rank : Nat}
    (h : a.HasRank type rank) : a.rank? type = some rank := by
  cases h with
  | exact h =>
      have hne : a.targets ≠ [] := List.ne_nil_of_mem h
      simp [rank?, hne, h]
  | inherited hexact htarget habove =>
      have hne : a.targets ≠ [] := List.ne_nil_of_mem htarget
      have hany : a.targets.any type.isUnder = true :=
        List.any_eq_true.2 ⟨_, htarget, Class.isUnder_iff.2 (.inr habove)⟩
      simp [rank?, hne, hexact, -List.any_eq_true, hany]
  | general h => simp [rank?, h]

theorem hasRank_of_rank? {a : Accessor} {type : Class} {rank : Nat}
    (h : a.rank? type = some rank) : a.HasRank type rank := by
  unfold rank? at h
  split at h
  next hempty =>
    cases h
    exact .general (List.isEmpty_iff.1 hempty)
  next =>
    split at h
    next hexact =>
      cases h
      exact .exact (List.contains_iff_mem.1 hexact)
    next hexact =>
      split at h
      next hany =>
        cases h
        rcases List.any_eq_true.1 hany with ⟨superclass, htarget, hunder⟩
        have hnot : type ∉ a.targets :=
          fun hmem => hexact (List.contains_iff_mem.2 hmem)
        rcases Class.isUnder_iff.1 hunder with rfl | habove
        · exact absurd htarget hnot
        · exact .inherited hnot htarget habove
      next => cases h

theorem rank?_eq_some_iff {a : Accessor} {type : Class} {rank : Nat} :
    a.rank? type = some rank ↔ a.HasRank type rank :=
  ⟨hasRank_of_rank?, rank?_of_hasRank⟩

theorem HasRank.unique {a : Accessor} {type : Class} {i j : Nat}
    (hi : a.HasRank type i) (hj : a.HasRank type j) : i = j :=
  Option.some.inj ((rank?_of_hasRank hi).symm.trans (rank?_of_hasRank hj))

theorem rank?_eq_none_iff {a : Accessor} {type : Class} :
    a.rank? type = none ↔ ∀ rank, ¬a.HasRank type rank := by
  simp only [Option.eq_none_iff_forall_ne_some, ne_eq, rank?_eq_some_iff]

end Accessor

/-- Whether `a` stands somewhere before `b`. -/
def Precedes (accessors : List Accessor) (a b : Accessor) : Prop :=
  [a, b].Sublist accessors

theorem precedes_filter_iff {accessors : List Accessor} {p : Accessor → Bool}
    {a b : Accessor} (ha : p a = true) (hb : p b = true) :
    Precedes (accessors.filter p) a b ↔ Precedes accessors a b := by
  constructor
  · exact fun h => h.trans List.filter_sublist
  · intro h
    have hfiltered := List.Sublist.filter p h
    rwa [List.filter_cons_of_pos ha, List.filter_cons_of_pos hb,
      List.filter_nil] at hfiltered

namespace Registry

variable {r : Registry} {type : Class}

theorem mem_ranked {a : Accessor} {rank : Nat} :
    a ∈ r.ranked type rank ↔ a ∈ r.accessors ∧ a.HasRank type rank := by
  simp [ranked, Accessor.rank?_eq_some_iff]

theorem mem_candidates {a : Accessor} :
    a ∈ r.candidates type ↔ a ∈ r.accessors ∧ ∃ rank, a.HasRank type rank := by
  simp only [candidates, List.mem_append, mem_ranked]
  constructor
  · rintro ((⟨hmem, hrank⟩ | ⟨hmem, hrank⟩) | ⟨hmem, hrank⟩) <;>
      exact ⟨hmem, _, hrank⟩
  · rintro ⟨hmem, rank, hrank⟩
    cases hrank with
    | exact h => exact .inl (.inl ⟨hmem, .exact h⟩)
    | inherited hexact htarget habove =>
        exact .inl (.inr ⟨hmem, .inherited hexact htarget habove⟩)
    | general h => exact .inr ⟨hmem, .general h⟩

/-- A relation that holds in order within every rank, and from each rank to the
higher ones, holds in order among all accessors to try. -/
theorem pairwise_candidates {R : Accessor → Accessor → Prop}
    (hwithin : ∀ rank, (r.ranked type rank).Pairwise R)
    (hacross : ∀ i j, i < j → ∀ a ∈ r.ranked type i,
      ∀ b ∈ r.ranked type j, R a b) :
    (r.candidates type).Pairwise R := by
  rw [candidates, List.pairwise_append, List.pairwise_append]
  refine ⟨⟨hwithin 0, hwithin 1, hacross 0 1 (by omega)⟩, hwithin 2, ?_⟩
  intro a ha b hb
  rcases List.mem_append.1 ha with ha | ha
  · exact hacross 0 2 (by omega) a ha b hb
  · exact hacross 1 2 (by omega) a ha b hb

theorem le_of_precedes_candidates {a b : Accessor} {i j : Nat}
    (hab : Precedes (r.candidates type) a b) (hi : a.HasRank type i)
    (hj : b.HasRank type j) : i ≤ j := by
  have hordered : (r.candidates type).Pairwise fun a b =>
      ∀ i j, a.HasRank type i → b.HasRank type j → i ≤ j := by
    refine pairwise_candidates (fun rank => ?_) fun low high hlt a ha b hb
      i j hi hj => ?_
    · refine List.pairwise_of_forall_mem_list fun a ha b hb i j hi hj => ?_
      rw [hi.unique (mem_ranked.1 ha).2, hj.unique (mem_ranked.1 hb).2]
    · rw [hi.unique (mem_ranked.1 ha).2, hj.unique (mem_ranked.1 hb).2]
      exact Nat.le_of_lt hlt
  exact List.pairwise_iff_forall_sublist.1 hordered hab i j hi hj

theorem nodup_candidates (hr : r.identities.Nodup) :
    ((r.candidates type).map (·.identity)).Nodup := by
  rw [List.Nodup, List.pairwise_map]
  apply pairwise_candidates
  · intro rank
    exact (List.pairwise_map.1 hr).sublist List.filter_sublist
  · intro i j hlt a ha b hb heq
    rcases mem_ranked.1 ha with ⟨hmema, hi⟩
    rcases mem_ranked.1 hb with ⟨hmemb, hj⟩
    rw [eq_of_identity_eq hr hmema hmemb heq] at hi
    exact absurd (hi.unique hj) (by omega)

theorem filter_candidates {rank : Nat} (hrank : rank < 3) :
    (r.candidates type).filter (fun a => a.rank? type == some rank) =
      r.ranked type rank := by
  have hself : (r.ranked type rank).filter
      (fun a => a.rank? type == some rank) =
      r.ranked type rank := by
    simp [ranked, List.filter_filter]
  have hother : ∀ other, other ≠ rank →
      (r.ranked type other).filter (fun a => a.rank? type == some rank) =
        [] := by
    intro other hne
    rw [List.filter_eq_nil_iff]
    intro a ha
    rw [Accessor.rank?_of_hasRank (mem_ranked.1 ha).2]
    simpa using hne
  rw [candidates, List.filter_append, List.filter_append]
  obtain rfl | rfl | rfl : rank = 0 ∨ rank = 1 ∨ rank = 2 := by omega
  · rw [hself, hother 1 (by omega), hother 2 (by omega), List.append_nil,
      List.append_nil]
  · rw [hself, hother 0 (by omega), hother 2 (by omega), List.nil_append,
      List.append_nil]
  · rw [hself, hother 0 (by omega), hother 1 (by omega), List.nil_append,
      List.nil_append]

/-- Accessors of one rank are tried in registration order. -/
theorem precedes_candidates_iff {a b : Accessor} {rank : Nat}
    (ha : a.HasRank type rank) (hb : b.HasRank type rank) :
    Precedes (r.candidates type) a b ↔ Precedes r.accessors a b := by
  have hrank : rank < 3 := by cases ha <;> omega
  have hpa : (a.rank? type == some rank) = true := by
    rw [Accessor.rank?_of_hasRank ha, beq_self_eq_true]
  have hpb : (b.rank? type == some rank) = true := by
    rw [Accessor.rank?_of_hasRank hb, beq_self_eq_true]
  have hfilter : ∀ accessors : List Accessor,
      Precedes (accessors.filter fun c => c.rank? type == some rank) a b ↔
        Precedes accessors a b :=
    fun _ => precedes_filter_iff hpa hpb
  rw [← hfilter, filter_candidates hrank, ranked, hfilter]

/-! ## Registering and unregistering -/

section Changes

variable {x : Accessor}

theorem ranked_extended_of_hasRank {rank : Nat} (hx : x.HasRank type rank) :
    (r.extended x).ranked type rank = r.ranked type rank ++ [x] := by
  simp [ranked, extended, Accessor.rank?_of_hasRank hx]

theorem ranked_extended_of_not_hasRank {rank : Nat}
    (hx : ¬x.HasRank type rank) :
    (r.extended x).ranked type rank = r.ranked type rank := by
  simp [ranked, extended, Accessor.rank?_eq_some_iff, hx]

theorem candidates_extended_of_unranked (hx : ∀ rank, ¬x.HasRank type rank) :
    (r.extended x).candidates type = r.candidates type := by
  simp only [candidates, ranked_extended_of_not_hasRank (hx _)]

/-- The accessors to try that have a given rank or a lower one. -/
def upTo (r : Registry) (type : Class) (rank : Nat) : List Accessor :=
  (List.range (rank + 1)).flatMap (r.ranked type)

theorem mem_upTo {a : Accessor} {rank : Nat} :
    a ∈ r.upTo type rank ↔ a ∈ r.accessors ∧ ∃ i ≤ rank, a.HasRank type i := by
  simp only [upTo, List.mem_flatMap, List.mem_range, mem_ranked,
    Nat.lt_succ_iff]
  constructor
  · rintro ⟨i, hle, hmem, hi⟩
    exact ⟨hmem, i, hle, hi⟩
  · rintro ⟨hmem, i, hle, hi⟩
    exact ⟨i, hle, hmem, hi⟩

/-- A further accessor is tried right after those of its rank and of lower
ranks. -/
theorem exists_candidates_extended {rank : Nat} (hx : x.HasRank type rank) :
    ∃ later, r.candidates type = r.upTo type rank ++ later ∧
      (r.extended x).candidates type = r.upTo type rank ++ x :: later := by
  have hself := ranked_extended_of_hasRank (r := r) hx
  have hother : ∀ other, other ≠ rank →
      (r.extended x).ranked type other = r.ranked type other :=
    fun other hne => ranked_extended_of_not_hasRank fun h => hne (h.unique hx)
  -- What is tried later are the higher ranks, which the accessor does not
  -- change.
  cases hx with
  | exact =>
      refine ⟨r.ranked type 1 ++ r.ranked type 2, ?_, ?_⟩
      · simp [candidates, upTo]
      · simp [candidates, upTo, hself, hother]
  | inherited =>
      refine ⟨r.ranked type 2, ?_, ?_⟩
      · simp [candidates, upTo, List.range_succ]
      · simp [candidates, upTo, List.range_succ, hself, hother]
  | general =>
      refine ⟨[], ?_, ?_⟩
      · simp [candidates, upTo, List.range_succ]
      · simp [candidates, upTo, List.range_succ, hself, hother]

/-- The accessors that stay are tried in the order that they had. -/
theorem candidates_filter (r : Registry) (type : Class)
    (keep : Accessor → Bool) :
    (⟨r.accessors.filter keep⟩ : Registry).candidates type =
      (r.candidates type).filter keep := by
  simp only [candidates, ranked, List.filter_append, List.filter_filter,
    Bool.and_comm]

theorem candidates_without (r : Registry) (type : Class)
    (identity : Identity) :
    (r.without identity).candidates type =
      (r.candidates type).filter (·.identity != identity) :=
  candidates_filter r type (·.identity != identity)

theorem candidates_without_of_unranked (hr : r.identities.Nodup)
    (hx : x ∈ r.accessors) (hrank : ∀ rank, ¬x.HasRank type rank) :
    (r.without x.identity).candidates type = r.candidates type := by
  rw [candidates_without, List.filter_eq_self]
  intro a ha
  rcases mem_candidates.1 ha with ⟨hmem, rank, harank⟩
  rw [bne_iff_ne]
  intro heq
  rw [eq_of_identity_eq hr hmem hx heq] at harank
  exact hrank rank harank

end Changes

/-- The accessors to try are the registered accessors that have a rank, each
once, sorted by rank and within a rank by registration.  Adding or removing an
accessor without a rank does not change them, and removing another one takes
out that one alone. -/
theorem candidates_stably_sorted (r : Registry) (hr : r.identities.Nodup)
    (type : Class) :
    (∀ a, a ∈ r.candidates type ↔
      a ∈ r.accessors ∧ ∃ rank, a.HasRank type rank) ∧
    ((r.candidates type).map (·.identity)).Nodup ∧
    (∀ a b i j, Precedes (r.candidates type) a b → a.HasRank type i →
      b.HasRank type j →
      i ≤ j) ∧
    (∀ a b rank, a.HasRank type rank → b.HasRank type rank →
      (Precedes (r.candidates type) a b ↔ Precedes r.accessors a b)) ∧
    (∀ x : Accessor, x.identity ∉ r.identities →
      (∃ r', (register (.accessor x)).result r = (.ok (), r') ∧
        ((∀ rank, ¬x.HasRank type rank) →
          r'.candidates type = r.candidates type)) ∧
      (unregister (.accessor x)).result r = (.ok false, r)) ∧
    ∀ x ∈ r.accessors, ∃ r',
      (unregister (.accessor x)).result r = (.ok true, r') ∧
      r'.candidates type = (r.candidates type).filter
        (·.identity != x.identity) ∧
      ((∀ rank, ¬x.HasRank type rank) →
        r'.candidates type = r.candidates type) := by
  refine ⟨fun a => mem_candidates, nodup_candidates hr, ?_, ?_, ?_, ?_⟩
  · exact fun a b i j => le_of_precedes_candidates
  · exact fun a b rank => precedes_candidates_iff
  · intro x hnew
    exact ⟨⟨r.extended x, register_of_not_mem r hnew,
      candidates_extended_of_unranked⟩, unregister_of_not_mem r hnew⟩
  · intro x hx
    exact ⟨r.without x.identity, unregister_of_mem r hr (mem_identities hx),
      candidates_without r type x.identity,
      candidates_without_of_unranked hr hx⟩

/-- Accessors that name superclasses, an unrelated class, the class itself
besides the class of everything, and nothing at all. -/
theorem candidates_stably_sorted_for_derived_array :
    let named (name : String) (targets : List Class) : Accessor :=
      Script.accessor ⟨name, none, targets, .always, .never, .null, .accepts⟩
        (.declared name) []
    let general := named "General" []
    let nodes := named "Nodes" [.textNode, .node]
    let texts := named "Texts" [.text]
    let derived := named "Derived" [.anything, .derivedArray]
    let arrays := named "Arrays" [.arrayNode]
    let r : Registry := ⟨[general, nodes, texts, derived, arrays]⟩
    r.identities.Nodup ∧
      r.candidates .derivedArray = [derived, nodes, arrays, general] ∧
      Precedes (r.candidates .derivedArray) nodes arrays ∧
      (∃ r', (unregister (.accessor nodes)).result r = (.ok true, r') ∧
        r'.candidates .derivedArray = [derived, arrays, general]) ∧
      ∃ r', (unregister (.accessor texts)).result r = (.ok true, r') ∧
        r'.candidates .derivedArray = r.candidates .derivedArray := by
  intro named general nodes texts derived arrays r
  have hr : r.identities.Nodup := by decide
  have hnodes : nodes.HasRank .derivedArray 1 := Accessor.hasRank_of_rank? rfl
  have harrays : arrays.HasRank .derivedArray 1 :=
    Accessor.hasRank_of_rank? rfl
  have htexts : ∀ rank, ¬texts.HasRank .derivedArray rank :=
    Accessor.rank?_eq_none_iff.1 rfl
  rcases candidates_stably_sorted r hr .derivedArray with
    ⟨-, -, -, hstable, -, hremoved⟩
  refine ⟨hr, rfl, (hstable nodes arrays 1 hnodes harrays).2 ?_, ?_, ?_⟩
  · exact .cons _ (.cons_cons _ (.cons _ (.cons _ (.cons_cons _ .slnil))))
  · rcases hremoved nodes (by simp [r]) with ⟨r', houtcome, hrest, -⟩
    exact ⟨r', houtcome, hrest⟩
  · rcases hremoved texts (by simp [r]) with ⟨r', houtcome, -, hsame⟩
    exact ⟨r', houtcome, hsame htexts⟩

end Registry
end IndexAccess
