import IndexAccess.Proofs.Node.Offenders
import IndexAccess.Proofs.Value.Display

/-!
# The first offender of a value

A place in a value is reached by descending step by step: into the items of
lists and tuples, and into the entries of dictionaries and mappings, whose keys
come before their contents.  Comparing places step by step gives the order of a
depth-first traversal from left to right.

What stands where is said here apart from any traversal, and offenders are told
by their classes.  The failure of a value that has no node is that of an
offender whose place comes before the places of all others.
-/

namespace IndexAccess

/-- Whether values of a class have nodes, at least if their members do. -/
def Class.hasNodes : Class → Bool
  | none | boolean | integer | number | text | list | tuple | dict | mapping =>
    true
  | type => type.isNode

theorem Foreign.hasNodes_classOf (kind : Foreign) :
    kind.classOf.hasNodes = false := by
  cases kind with
  | object type => exact Class.isNode_declared type
  | _ => rfl

theorem Node.hasNodes_classOf (n : Node) : n.classOf.hasNodes = true := by
  cases n with
  | array style => cases style <;> rfl
  | _ => rfl

namespace Offender

/-- The value that is at fault. -/
def content : Offender → Value
  | number x => .number x
  | key k => k
  | value v => v

/-- How an offender is reported. -/
def report : Offender → String
  | number x => s!"Non-finite number {x.text} is not valid JSON"
  | key k => s!"JSON object keys must be strings, got {k.shown}"
  | value v =>
    s!"Value type '{v.classOf.qualifiedName}' has no JSON node representation"

theorem failure_report (o : Offender) :
    (∃ fault, o.failure = .index (.unrepresentable fault) ∧
        fault.type = o.content.classOf ∧ fault.message = o.report) ∨
      ∃ k obstacle, o = .key k ∧ k.HasObstacle obstacle ∧
        k.obstacle? = some obstacle ∧
        o.failure = .value obstacle := by
  cases o with
  | number x => exact .inl ⟨_, rfl, rfl, rfl⟩
  | value v => exact .inl ⟨_, rfl, rfl, rfl⟩
  | key k =>
      rw [failure]
      cases hk : k.obstacle? with
      | none => exact .inl ⟨_, rfl, rfl, rfl⟩
      | some obstacle =>
          exact .inr ⟨k, obstacle, rfl, k.hasObstacle_of_obstacle? hk, hk, rfl⟩

end Offender

namespace Value

/-- A step into a value: to an item, or to the key or the content of an
entry. -/
inductive Descent where
  | item (i : Nat)
  | key (i : Nat)
  | content (i : Nat)
deriving DecidableEq

/-- The key of an entry comes before its content, and both come after all of
the entries before. -/
def Descent.Before : Descent → Descent → Prop
  | item i, item j => i < j
  | key i, content j => i ≤ j
  | key i, key j | content i, key j | content i, content j => i < j
  | _, _ => False

abbrev Place := List Descent

abbrev Place.Before : Place → Place → Prop := List.Lex Descent.Before

/-- An offender stands in a value at a place.  Nothing is said about what
stands inside a key or inside a node. -/
inductive HasOffender : Value → Place → Offender → Prop
  | number {x : Binary64} (hx : ∀ y, x ≠ .finite y) : HasOffender (number x)
    [] (.number x)
  | value {v : Value}
    (hv : v.classOf.hasNodes = false) : HasOffender v [] (.value v)
  | item {v item : Value} {items : List Value} {i : Nat} {p : Place}
    {o : Offender}
      (hv : v.sequence? = some items) (hitem : items[i]? = some item)
      (ho : HasOffender item p o) : HasOffender v (.item i :: p) o
  | key {v k content : Value} {entries : List (Value × Value)} {i : Nat}
      (hv : v.entries? = some entries) (hentry : entries[i]? =
        some (k, content))
      (hk : k.classOf ≠ .text) : HasOffender v [.key i] (.key k)
  | content {v k content : Value} {entries : List (Value × Value)}
    {i : Nat} {p : Place}
      {o : Offender} (hv : v.entries? = some entries)
      (hentry : entries[i]? = some (k, content))
        (ho : HasOffender content p o) :
      HasOffender v (.content i :: p) o

/-- An offender at a place that comes before all other places of offenders. -/
structure IsFirstOffender (v : Value) (p : Place) (o : Offender) : Prop where
  stands : v.HasOffender p o
  before : ∀ q other, v.HasOffender q other → p = q ∨ p.Before q

@[elab_as_elim]
theorem induction {P : Value → Prop}
    (plain : ∀ v : Value, v.sequence? = none → v.entries? = none → P v)
    (sequence : ∀ (v : Value) (items : List Value), v.sequence? = some items →
      (∀ item ∈ items, P item) → P v)
    (pairs : ∀ (v : Value) (entries : List (Value × Value)),
      v.entries? = some entries →
      (∀ k content, (k, content) ∈ entries → P content) → P v) :
    ∀ v, P v
  | .list items | .tuple items =>
    sequence _ items rfl fun item _ => induction plain sequence pairs item
  | .dict entries | .mapping entries =>
    pairs _ entries rfl fun _ content _hmem =>
      induction plain sequence pairs content
  | .null | .boolean _ | .integer _ | .number _ | .text _ | .bytes _ | .foreign
    _ | .node _ =>
    plain _ rfl rfl
termination_by v => sizeOf v
decreasing_by
  all_goals first
    | decreasing_trivial
    | (have hlt := List.sizeOf_lt_of_mem _hmem
       simp only [Prod.mk.sizeOf_spec, dict.sizeOf_spec,
         mapping.sizeOf_spec] at hlt ⊢
       omega)

/-- At most one offender stands at a place. -/
theorem HasOffender.unique {v : Value} {p : Place} {o other : Offender}
    (h : v.HasOffender p o) (hother : v.HasOffender p other) : o = other := by
  induction h with
  | number =>
      cases hother with
      | number => rfl
      | value hclass => cases hclass
  | value hclass =>
      cases hother with
      | number => cases hclass
      | value => rfl
  | item hv hitem _ ih =>
      cases hother with
      | item hv' hitem' ho' =>
          obtain rfl := Option.some.inj (hv.symm.trans hv')
          obtain rfl := Option.some.inj (hitem.symm.trans hitem')
          exact ih ho'
  | key hv hentry =>
      cases hother with
      | key hv' hentry' =>
          obtain rfl := Option.some.inj (hv.symm.trans hv')
          cases hentry.symm.trans hentry'
          rfl
  | content hv hentry _ ih =>
      cases hother with
      | content hv' hentry' ho' =>
          obtain rfl := Option.some.inj (hv.symm.trans hv')
          cases hentry.symm.trans hentry'
          exact ih ho'

theorem Descent.Before.not_before {d e : Descent} (h : d.Before e) :
    ¬ e.Before d := by
  cases d <;> cases e <;> simp only [Descent.Before] at h ⊢ <;> omega

instance : Std.Asymm Descent.Before := ⟨fun _ _ => Descent.Before.not_before⟩

/-- There is one first offender at most, since no two places come before each
other. -/
theorem IsFirstOffender.unique {v : Value} {p q : Place} {o other : Offender}
    (h : v.IsFirstOffender p o) (hother : v.IsFirstOffender q other) :
    p = q ∧ o = other := by
  have hplaces : p = q := by
    rcases h.before q other hother.stands with heq | hbefore
    · exact heq
    · rcases hother.before p o h.stands with heq | hafter
      · exact heq.symm
      · exact absurd hafter (asymm hbefore)
  subst hplaces
  exact ⟨rfl, h.stands.unique hother.stands⟩

/-! ## Offenders inside containers -/

section Inversion

variable {v : Value} {items : List Value}
  {entries : List (Value × Value)} {p : Place} {o : Offender}

theorem hasOffender_of_sequence (hv : v.sequence? = some items) :
    v.HasOffender p o ↔
      ∃ i item q, p = .item i :: q ∧ items[i]? = some item ∧
        item.HasOffender q o := by
  constructor
  · intro h
    cases h with
    | number => cases hv
    | value hclass =>
        cases v <;> simp [sequence?, classOf, Class.hasNodes] at hv hclass
    | item hv' hitem ho =>
        obtain rfl := Option.some.inj (hv.symm.trans hv')
        exact ⟨_, _, _, rfl, hitem, ho⟩
    | key hv' | content hv' => cases v <;> simp [sequence?, entries?] at hv hv'
  · rintro ⟨i, item, q, rfl, hitem, ho⟩
    exact .item hv hitem ho

theorem hasOffender_of_entries (hv : v.entries? = some entries) :
    v.HasOffender p o ↔
      (∃ i k content, p = [.key i] ∧ o = .key k ∧
        entries[i]? = some (k, content) ∧
        k.classOf ≠ .text) ∨
      ∃ i k content q, p = .content i :: q ∧ entries[i]? = some (k, content) ∧
        content.HasOffender q o := by
  constructor
  · intro h
    cases h with
    | number => cases hv
    | value hclass =>
        cases v <;> simp [entries?, classOf, Class.hasNodes] at hv hclass
    | item hv' => cases v <;> simp [sequence?, entries?] at hv hv'
    | key hv' hentry hk =>
        obtain rfl := Option.some.inj (hv.symm.trans hv')
        exact .inl ⟨_, _, _, rfl, rfl, hentry, hk⟩
    | content hv' hentry ho =>
        obtain rfl := Option.some.inj (hv.symm.trans hv')
        exact .inr ⟨_, _, _, _, rfl, hentry, ho⟩
  · rintro (⟨i, k, content, rfl, rfl, hentry, hk⟩ | ⟨i, k, content, q,
      rfl, hentry, ho⟩)
    · exact .key hv hentry hk
    · exact .content hv hentry ho

/-- A value without members is an offender itself or has none. -/
theorem hasOffender_of_plain (hsequence : v.sequence? = none)
    (hentries : v.entries? = none) :
    v.HasOffender p o ↔ p = [] ∧ o ∈ v.offenders := by
  constructor
  · intro h
    cases h with
    | @number x hx =>
        cases x with
        | finite y => exact absurd rfl (hx y)
        | infinite | nan => exact ⟨rfl, List.mem_singleton_self _⟩
    | value hclass =>
        cases v with
        | bytes | foreign => exact ⟨rfl, List.mem_singleton_self _⟩
        | node n =>
            exact absurd n.hasNodes_classOf (Bool.eq_false_iff.1 hclass)
        | _ => cases hclass
    | item hv => cases hsequence.symm.trans hv
    | key hv | content hv => cases hentries.symm.trans hv
  · rintro ⟨rfl, ho⟩
    cases v with
    | number x =>
        cases x with
        | finite => cases ho
        | infinite | nan =>
            obtain rfl := List.mem_singleton.1 ho
            exact .number fun y heq => by cases heq
    | bytes =>
        obtain rfl := List.mem_singleton.1 ho
        exact .value rfl
    | foreign kind =>
        obtain rfl := List.mem_singleton.1 ho
        exact .value kind.hasNodes_classOf
    | list | tuple => cases hsequence
    | dict | mapping => cases hentries
    | _ => cases ho

end Inversion

/-! ## The order of places -/

section Order

theorem offenders_of_sequence {v : Value} {items : List Value}
    (hv : v.sequence? = some items) :
    v.offenders = items.flatMap offenders := by
  rw [← itemOffenders_eq]
  cases v <;> cases hv <;> rfl

theorem offenders_of_entries {v : Value} {entries : List (Value × Value)}
    (hv : v.entries? = some entries) :
    v.offenders = entries.flatMap fun entry =>
      keyOffenders entry.1 ++ offenders entry.2 := by
  rw [← entryOffenders_eq]
  cases v <;> cases hv <;> rfl

theorem keyOffenders_of_classOf_eq {k : Value} (hk : k.classOf = .text) :
    keyOffenders k = [] := by
  cases k with
  | text => rfl
  | foreign kind => cases kind <;> cases hk
  | node n =>
      cases n with
      | array style => cases style <;> cases hk
      | _ => cases hk
  | _ => cases hk

theorem keyOffenders_of_classOf_ne {k : Value} (hk : k.classOf ≠ .text) :
    keyOffenders k = [.key k] := by
  cases k with
  | text => exact absurd rfl hk
  | _ => rfl

/-- The head of a list that is put together from parts is the head of the first
part that is not empty. -/
theorem exists_of_flatMap_eq_cons {α β : Type} {f : α → List β}
    {l : List α} {b : β} {bs : List β} (h : l.flatMap f = b :: bs) :
    ∃ (i : Nat) (a : α) (as : List β), l[i]? = some a ∧ f a = b :: as ∧
      ∀ j < i, ∀ c, l[j]? = some c → f c = [] := by
  induction l with
  | nil => cases h
  | cons a l ih =>
      rw [List.flatMap_cons] at h
      cases hpart : f a with
      | cons b' as =>
          rw [hpart, List.cons_append] at h
          obtain rfl := (List.cons.inj h).1
          exact ⟨0, a, as, rfl, hpart, fun j hj => absurd hj j.not_lt_zero⟩
      | nil =>
          rw [hpart, List.nil_append] at h
          obtain ⟨i, c, as, hc, hfc, hbefore⟩ := ih h
          refine ⟨i + 1, c, as, hc, hfc, ?_⟩
          intro j hj d hd
          cases j with
          | zero =>
              obtain rfl := Option.some.inj hd
              exact hpart
          | succ j => exact hbefore j (Nat.lt_of_succ_lt_succ hj) d hd

/-- Nothing stands at fault in a value whose list of offenders is empty. -/
theorem not_hasOffender_of_offenders_eq_nil (v : Value) :
    v.offenders = [] → ∀ p o, ¬ v.HasOffender p o := by
  induction v using induction with
  | plain v hsequence hentries =>
      intro hnil p o ho
      rw [hasOffender_of_plain hsequence hentries, hnil] at ho
      cases ho.2
  | sequence v items hv ih =>
      intro hnil p o ho
      rw [offenders_of_sequence hv, List.flatMap_eq_nil_iff] at hnil
      obtain ⟨i, item, q, rfl, hitem, ho⟩ := (hasOffender_of_sequence hv).1 ho
      have hmem := List.mem_of_getElem? hitem
      exact ih item hmem (hnil item hmem) q o ho
  | pairs v entries hv ih =>
      intro hnil p o ho
      rw [offenders_of_entries hv, List.flatMap_eq_nil_iff] at hnil
      rcases (hasOffender_of_entries hv).1 ho with
        ⟨i, k, content, rfl, rfl, hentry, hk⟩ | ⟨i, k, content, q, rfl, hentry,
          ho⟩
      · have hparts := List.append_eq_nil_iff.1
          (hnil _ (List.mem_of_getElem? hentry))
        rw [keyOffenders_of_classOf_ne hk] at hparts
        cases hparts.1
      · have hmem := List.mem_of_getElem? hentry
        exact ih k content hmem
          (List.append_eq_nil_iff.1 (hnil _ hmem)).2 q o ho

/-- An entry at fault does not stand before one before which there are no
offenders. -/
theorem le_of_faultless_before {entries : List (Value × Value)} {i j : Nat}
    {k content : Value} (hbefore : ∀ j < i, ∀ entry, entries[j]? = some entry →
      keyOffenders entry.1 ++ offenders entry.2 = [])
    (hentry : entries[j]? = some (k, content))
    (hfault : k.classOf ≠ .text ∨ ∃ p o, content.HasOffender p o) : i ≤ j := by
  by_contra hlt
  obtain ⟨hkey, hcontent⟩ :=
    List.append_eq_nil_iff.1 (hbefore j (Nat.not_le.1 hlt) _ hentry)
  rcases hfault with hk | ⟨p, o, ho⟩
  · rw [keyOffenders_of_classOf_ne hk] at hkey
    cases hkey
  · exact not_hasOffender_of_offenders_eq_nil content hcontent p o ho

/-- The head of the list of offenders stands before all others. -/
theorem exists_isFirstOffender (v : Value) :
    ∀ {o later}, v.offenders = o :: later → ∃ p, v.IsFirstOffender p o := by
  induction v using induction with
  | plain v hsequence hentries =>
      intro o later hoffenders
      refine ⟨[], (hasOffender_of_plain hsequence hentries).2 ⟨rfl, ?_⟩, ?_⟩
      · rw [hoffenders]
        exact List.mem_cons_self
      · intro q other hq
        exact .inl ((hasOffender_of_plain hsequence hentries).1 hq).1.symm
  | sequence v items hv ih =>
      intro o later hoffenders
      rw [offenders_of_sequence hv] at hoffenders
      obtain ⟨i, item, as, hitem, has, hbefore⟩ :=
        exists_of_flatMap_eq_cons hoffenders
      obtain ⟨p, hp⟩ := ih item (List.mem_of_getElem? hitem) has
      refine ⟨.item i :: p, .item hv hitem hp.stands, ?_⟩
      intro q other hq
      obtain ⟨j, member, r, rfl, hmember, hr⟩ :=
        (hasOffender_of_sequence hv).1 hq
      rcases Nat.lt_trichotomy i j with hlt | rfl | hgt
      · exact .inr (.rel hlt)
      · obtain rfl := Option.some.inj (hitem.symm.trans hmember)
        exact (hp.before r other hr).imp (congrArg _) .cons
      · have hnone := hbefore j hgt member hmember
        exact absurd hr (not_hasOffender_of_offenders_eq_nil member
          hnone r other)
  | pairs v entries hv ih =>
      intro o later hoffenders
      rw [offenders_of_entries hv] at hoffenders
      obtain ⟨i, ⟨k, content⟩, as, hentry, has, hbefore⟩ :=
        exists_of_flatMap_eq_cons hoffenders
      by_cases hk : k.classOf = .text
      · rw [keyOffenders_of_classOf_eq hk, List.nil_append] at has
        obtain ⟨p, hp⟩ := ih k content (List.mem_of_getElem? hentry) has
        refine ⟨.content i :: p, .content hv hentry hp.stands, ?_⟩
        intro q other hq
        rcases (hasOffender_of_entries hv).1 hq with
          ⟨j, k', content', rfl, rfl, hentry', hk'⟩ | ⟨j, k', content', r, rfl,
            hentry', hr⟩
        · rcases (le_of_faultless_before hbefore hentry' (.inl hk')).lt_or_eq
            with hlt | rfl
          · exact .inr (.rel hlt)
          · cases hentry.symm.trans hentry'
            exact absurd hk hk'
        · rcases (le_of_faultless_before hbefore hentry'
            (.inr ⟨r, other, hr⟩)).lt_or_eq with hlt | rfl
          · exact .inr (.rel hlt)
          · cases hentry.symm.trans hentry'
            exact (hp.before r other hr).imp (congrArg _) .cons
      · rw [keyOffenders_of_classOf_ne hk] at has
        obtain rfl := (List.cons.inj has).1
        refine ⟨[.key i], .key hv hentry hk, ?_⟩
        intro q other hq
        rcases (hasOffender_of_entries hv).1 hq with
          ⟨j, k', content', rfl, rfl, hentry', hk'⟩ | ⟨j, k', content', r, rfl,
            hentry', hr⟩
        · rcases (le_of_faultless_before hbefore hentry' (.inl hk')).lt_or_eq
            with hlt | rfl
          · exact .inr (.rel hlt)
          · exact .inl rfl
        · exact .inr (.rel
            (le_of_faultless_before hbefore hentry' (.inr ⟨r, other, hr⟩)))

end Order

end Value

/-! ## The failure that is reported -/

namespace Node

/-- A value has a node exactly if nothing stands in it at fault.  Otherwise it
fails with the class and the report of its first offender, or, if that is a key
that cannot be shown, with the failure of the first part of the key that keeps
it from being shown: an integer too long, or an object whose class fails to
show it. -/
theorem ofValue_reports_first_offender (v : Value) :
    ((∃ n, ofValue v = .ok n) ↔ ∀ p o, ¬ v.HasOffender p o) ∧
    ∀ failure, ofValue v = .error failure →
      ∃ p o, v.IsFirstOffender p o ∧
        (∀ q other, v.IsFirstOffender q other → q = p ∧ other = o) ∧
        ((∃ fault, failure = .index (.unrepresentable fault) ∧
            fault.type = o.content.classOf ∧ fault.message = o.report) ∨
          ∃ k obstacle, o = .key k ∧ k.HasObstacle obstacle ∧
            k.obstacle? = some obstacle ∧
            failure = .value obstacle) := by
  rcases ofValue_cases v with ⟨hnil, n, hn⟩ | ⟨o, later, hoffenders, herror⟩
  · constructor
    · exact iff_of_true ⟨n, hn⟩ (v.not_hasOffender_of_offenders_eq_nil hnil)
    · intro failure hfailure
      cases hn.symm.trans hfailure
  · obtain ⟨p, hp⟩ := v.exists_isFirstOffender hoffenders
    constructor
    · refine iff_of_false ?_ fun hnone => hnone p o hp.stands
      rintro ⟨n, hn⟩
      cases hn.symm.trans herror
    · intro failure hfailure
      obtain rfl := Except.error.inj (herror.symm.trans hfailure)
      exact ⟨p, o, hp, fun q other hq => hq.unique hp, o.failure_report⟩

/-- Offenders in two entries and in the key between them: not-a-number, second
in the tuple of the first entry, is reported. -/
theorem ofValue_reports_first_offender_of_three :
    let v : Value := .dict
      [(.text "a", .tuple [.boolean true, .number .nan, .bytes []]),
      (.integer 1, .foreign .set)]
    Node.ofValue v = .error
      (.index (.unrepresentable (.notFinite .number "nan"))) ∧
      v.HasOffender [.key 1] (.key (.integer 1)) ∧
      ∃ p o, v.IsFirstOffender p o ∧ o.content.classOf = .number ∧
        o.report = "Non-finite number nan is not valid JSON" := by
  intro v
  have hfailure : ofValue v =
      .error (.index (.unrepresentable (.notFinite .number "nan"))) := rfl
  refine ⟨hfailure, .key rfl rfl (by decide), ?_⟩
  obtain ⟨p, o, hfirst, -, hreport⟩ :=
    (ofValue_reports_first_offender v).2 _ hfailure
  rcases hreport with ⟨fault, heq, htype, hmessage⟩ | ⟨k, obstacle, -, -, -,
    heq⟩
  · cases heq
    exact ⟨p, o, hfirst, htype.symm, hmessage.symm⟩
  · cases heq

end Node
end IndexAccess
