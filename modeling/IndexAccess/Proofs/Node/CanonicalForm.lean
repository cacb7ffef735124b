import IndexAccess.Proofs.Node.DistinctNames
import IndexAccess.Proofs.Value.Equality

/-!
# Equality of nodes as equality of canonical forms

The canonical form of a node keeps what equality looks at: the class and the
scalar of a leaf, where the two zeros are one, the items of an array in order,
and for every name of an object the form of the node under it.  It forgets the
classes of arrays and the order of fields.

Two trees without repeated names are equal exactly if their canonical forms
are, so that equality is an equivalence, and whatever a canonical form
determines is the same in both: what stands at a place, and the native form as
expressions compare it.
-/

namespace IndexAccess

/-- Objects are maps from names, so that two of them are the same if they agree
on every name. -/
inductive CanonicalForm where
  | text (value : Text)
  | integer (value : Int)
  | number (value : FiniteBinary64)
  | boolean (value : Bool)
  | null
  | array (items : List CanonicalForm)
  | object (fields : Text → Option CanonicalForm)

/-- A number with the positive zero in place of the negative one. -/
def FiniteBinary64.unsignedZero (x : FiniteBinary64) : FiniteBinary64 :=
  if x.isZero then .zero false else x

theorem FiniteBinary64.sameNumber_iff {x y : FiniteBinary64} :
    x.sameNumber y = true ↔ x.unsignedZero = y.unsignedZero := by
  have hzero : (zero false).isZero = true := rfl
  unfold sameNumber unsignedZero
  cases hx : x.isZero <;> cases hy : y.isZero <;> grind

namespace Node

mutual

def canonicalForm : Node → CanonicalForm
  | text s => .text s
  | integer i => .integer i
  | number x => .number x.unsignedZero
  | boolean b => .boolean b
  | null => .null
  | array _ _ items => .array (canonicalItems items)
  | object _ fields => .object (Entries.get? (canonicalFields fields))

def canonicalItems : List Node → List CanonicalForm
  | [] => []
  | item :: rest => canonicalForm item :: canonicalItems rest

def canonicalFields : List (Text × Node) → List (Text × CanonicalForm)
  | [] => []
  | (name, n) :: rest => (name, canonicalForm n) :: canonicalFields rest

end

theorem canonicalItems_eq_map (items : List Node) :
    canonicalItems items = items.map canonicalForm := by
  induction items with
  | nil => rfl
  | cons item rest ih => rw [canonicalItems, ih, List.map_cons]

theorem get?_canonicalFields (fields : List (Text × Node)) (name : Text) :
    Entries.get? (canonicalFields fields) name =
      (Entries.get? fields name).map canonicalForm := by
  rw [← Entries.get?_map]
  congr 1
  induction fields with
  | nil => rfl
  | cons field rest ih => rw [canonicalFields, ih, List.map_cons]

theorem canonicalForm_object_eq_iff {cell cell' : Option Cell}
    {as bs : List (Text × Node)} :
    (object cell as).canonicalForm = (object cell' bs).canonicalForm ↔
      ∀ name, (Entries.get? as name).map canonicalForm =
        (Entries.get? bs name).map canonicalForm := by
  rw [canonicalForm, canonicalForm, CanonicalForm.object.injEq, funext_iff]
  simp only [get?_canonicalFields]

/-! ## Equality of canonical forms -/

section Same

theorem sameItems_iff_map_eq {as bs : List Node}
    (h : ∀ a ∈ as, ∀ b ∈ bs, (a.same b = true ↔
      a.canonicalForm = b.canonicalForm)) :
    sameItems as bs = true ↔ as.map canonicalForm = bs.map canonicalForm := by
  induction as generalizing bs with
  | nil => cases bs <;> simp [sameItems]
  | cons a as ih =>
      cases bs with
      | nil => simp [sameItems]
      | cons b bs =>
          have hrest := ih fun c hc d hd =>
            h c (List.mem_cons_of_mem a hc) d (List.mem_cons_of_mem b hd)
          rw [sameItems, Bool.and_eq_true, hrest,
            h a List.mem_cons_self b List.mem_cons_self, List.map_cons,
            List.map_cons, List.cons.injEq]

theorem rel_same_iff_map_eq {x y : Option Node}
    (h : ∀ a ∈ x, ∀ b ∈ y, (a.same b = true ↔
      a.canonicalForm = b.canonicalForm)) :
    Option.Rel (fun a b => a.same b = true) x y ↔
      x.map canonicalForm = y.map canonicalForm := by
  cases x with
  | none => cases y <;> simp
  | some a =>
      cases y with
      | none => simp
      | some b => simp [h a rfl b rfl]

/-- Trees without repeated names are the same if their canonical forms are. -/
theorem same_iff_canonicalForm_eq (a : Node) :
    ∀ b : Node, a.hasDistinctNames = true → b.hasDistinctNames = true →
      (a.same b = true ↔ a.canonicalForm = b.canonicalForm) := by
  induction a using induction with
  | leaf a hleaf =>
      intro b _ _
      cases a with
      | array | object => cases hleaf
      | number x =>
          cases b with
          | number y =>
              simp [same, canonicalForm, FiniteBinary64.sameNumber_iff]
          | _ => simp [same, canonicalForm]
      | _ => cases b <;> simp [same, canonicalForm]
  | array style cell as ih =>
      intro b ha hb
      rw [hasDistinctNames_array_iff] at ha
      cases b with
      | array style' cell' bs =>
          rw [hasDistinctNames_array_iff] at hb
          rw [same, canonicalForm, canonicalForm, CanonicalForm.array.injEq,
            canonicalItems_eq_map, canonicalItems_eq_map]
          exact sameItems_iff_map_eq fun a hmem b hmem' => ih a hmem b
            (ha a hmem) (hb b hmem')
      | _ => simp [same, canonicalForm]
  | object cell as ih =>
      intro b ha hb
      rw [hasDistinctNames_object_iff] at ha
      cases b with
      | object cell' bs =>
          rw [hasDistinctNames_object_iff] at hb
          rw [same_object_iff ha.1 hb.1, canonicalForm_object_eq_iff,
            ← Entries.forall_rel_get?_iff]
          refine forall_congr' fun name =>
            rel_same_iff_map_eq fun a hget b hget' => ?_
          have hmem := Entries.mem_of_get? hget
          have hmem' := Entries.mem_of_get? hget'
          exact ih name a hmem b (ha.2 name a hmem) (hb.2 name b hmem')
      | _ => simp [same, canonicalForm]

end Same

/-! ## Places of a tree -/

section Places

/-- A step into a container: to an item of an array, or to the field of a
name. -/
inductive Descent where
  | item (i : Nat)
  | field (name : Text)

def child? : Node → Descent → Option Node
  | array _ _ items, .item i => items[i]?
  | object _ fields, .field name => Entries.get? fields name
  | _, _ => none

/-- The node at a place of a tree. -/
def at? (n : Node) : List Descent → Option Node
  | [] => some n
  | d :: p => (n.child? d).bind fun child => child.at? p

variable {a b : Node}

theorem map_canonicalForm_child? (h : a.canonicalForm = b.canonicalForm)
    (d : Descent) :
    (a.child? d).map canonicalForm = (b.child? d).map canonicalForm := by
  cases a with
  | array style cell as =>
      cases b with
      | array style' cell' bs =>
          rw [canonicalForm, canonicalForm, CanonicalForm.array.injEq,
            canonicalItems_eq_map, canonicalItems_eq_map] at h
          cases d with
          | item i =>
              rw [child?, child?, ← List.getElem?_map, ← List.getElem?_map, h]
          | field => rfl
      | _ => cases h
  | object cell as =>
      cases b with
      | object cell' bs =>
          cases d with
          | item => rfl
          | field name => exact canonicalForm_object_eq_iff.1 h name
      | _ => cases h
  | _ => cases b <;> first | rfl | cases h

theorem map_canonicalForm_at? (h : a.canonicalForm = b.canonicalForm)
    (p : List Descent) :
    (a.at? p).map canonicalForm = (b.at? p).map canonicalForm := by
  induction p generalizing a b with
  | nil => exact congrArg some h
  | cons d p ih =>
      have hchild := map_canonicalForm_child? h d
      rw [at?, at?]
      cases ha : a.child? d with
      | none =>
          rw [ha, Option.map_none, eq_comm, Option.map_eq_none_iff] at hchild
          rw [hchild]
      | some x =>
          rw [ha, Option.map_some, eq_comm] at hchild
          obtain ⟨y, hy, hform⟩ := Option.map_eq_some_iff.1 hchild
          rw [hy]
          exact ih hform.symm

theorem hasDistinctNames_child? {d : Descent} (ha : a.hasDistinctNames = true)
    (h : a.child? d = some b) : b.hasDistinctNames = true := by
  cases a with
  | array style cell items =>
      cases d with
      | item i =>
          exact hasDistinctNames_array_iff.1 ha b (List.mem_of_getElem? h)
      | field => cases h
  | object cell fields =>
      cases d with
      | item => cases h
      | field name =>
          exact (hasDistinctNames_object_iff.1 ha).2 name b
            (Entries.mem_of_get? h)
  | _ => cases h

theorem hasDistinctNames_at? {p : List Descent}
    (ha : a.hasDistinctNames = true) (h : a.at? p = some b) :
    b.hasDistinctNames = true := by
  induction p generalizing a with
  | nil =>
      obtain rfl := Option.some.inj h
      exact ha
  | cons d p ih =>
      obtain ⟨child, hchild, hrest⟩ := Option.bind_eq_some_iff.1 h
      exact ih (hasDistinctNames_child? ha hchild) hrest

theorem classOf_eq_of_canonicalForm_eq (h : a.canonicalForm = b.canonicalForm)
    (hleaf : a.isLeaf = true) : a.classOf = b.classOf := by
  cases a with
  | array | object => cases hleaf
  | _ => cases b <;> first | rfl | cases h

end Places

/-- Equality of trees without repeated names decides whether their canonical
forms coincide.  It is an equivalence.  Equal trees have equal nodes at the
same places, leaves of the same class among them, and they stand for values
that are equal. -/
theorem equality_is_structural {a b : Node} (ha : a.hasDistinctNames = true)
    (hb : b.hasDistinctNames = true) :
    ((a == b) = true ↔ a.canonicalForm = b.canonicalForm) ∧
    (a == a) = true ∧
    (a == b) = (b == a) ∧
    (∀ c : Node, c.hasDistinctNames = true → (a == b) = true →
      (b == c) = true →
      (a == c) = true) ∧
    (a != b) = !(a == b) ∧
    ((a == b) = true → ∀ p x, a.at? p = some x → ∃ y,
      b.at? p = some y ∧ (x == y) = true ∧
      (x.isLeaf = true → x.classOf = y.classOf)) ∧
    ((a == b) = true → (a.native == b.native) = true) := by
  have hiff := same_iff_canonicalForm_eq a b ha hb
  refine ⟨hiff, (same_iff_canonicalForm_eq a a ha ha).2 rfl, ?_, ?_, rfl, ?_,
    same_native a b⟩
  · rw [Bool.eq_iff_iff]
    exact hiff.trans (eq_comm.trans (same_iff_canonicalForm_eq b a hb ha).symm)
  · intro c hc hab hbc
    have hforms := (hiff.1 hab).trans
      ((same_iff_canonicalForm_eq b c hb hc).1 hbc)
    exact (same_iff_canonicalForm_eq a c ha hc).2 hforms
  · intro hab p x hx
    have hplaces := map_canonicalForm_at? (hiff.1 hab) p
    rw [hx, Option.map_some, eq_comm] at hplaces
    obtain ⟨y, hy, hform⟩ := Option.map_eq_some_iff.1 hplaces
    have hdistinct := hasDistinctNames_at? ha hx
    refine ⟨y, hy, (same_iff_canonicalForm_eq x y hdistinct ?_).2
      hform.symm, ?_⟩
    · exact hasDistinctNames_at? hb hy
    · exact classOf_eq_of_canonicalForm_eq hform.symm

/-- Two trees that differ in the order of fields, in the sign of a zero and in
the classes of their arrays. -/
theorem equality_is_structural_across_orders :
    let a : Node := .array .derived (some 0)
      [.object none [("x", .number (.zero true)),
        ("y", .array .plain none [.integer 1])]]
    let b : Node := .array .plain none
      [.object (some 3) [("y", .array .derived none [.integer 1]),
        ("x", .number (.zero false))]]
    a.hasDistinctNames = true ∧ b.hasDistinctNames = true ∧
      a.canonicalForm = b.canonicalForm ∧ (b == a) = true ∧
      (a.native == b.native) = true ∧
      ∃ y, b.at? [.item 0, .field "x"] = some y ∧ y.classOf = .numberNode := by
  intro a b
  have ha : a.hasDistinctNames = true := by decide
  have hb : b.hasDistinctNames = true := by decide
  have hab : (a == b) = true := by decide
  obtain ⟨hiff, -, hsymm, -, -, hplaces, hnative⟩ :=
    equality_is_structural ha hb
  obtain ⟨y, hy, -, hclass⟩ :=
    hplaces hab [.item 0, .field "x"] (.number (.zero true)) rfl
  exact ⟨ha, hb, hiff.1 hab, hsymm ▸ hab, hnative hab, y, hy,
    (hclass rfl).symm⟩

end Node
end IndexAccess
