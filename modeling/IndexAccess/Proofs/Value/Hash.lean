import IndexAccess.Proofs.Value.Distinct
import IndexAccess.Value.Hash
import Mathlib.Data.ZMod.Basic

/-!
# Hashes that agree with equality

Looking for a member by its hash before its equality is tested finds the same
members, if equal ones have equal hashes.  The hashes of leaves and of typed
values are composed of those of the built-in classes, and they agree with
equality if those do: equal leaves are of one class and hold equal scalars, and
equal typed values have one tag and hold equal values.
-/

namespace IndexAccess

/-! ## Kept members -/

section Hashes

variable {α : Type} [BEq α] {content : α → Value}
  {hash : α → Except Failure Int} {code : α → Int}

/-- A member is hashed to its code if its content is fixed, and fixed members
that are equal have one code. -/
structure HashesBy (content : α → Value) (hash : α → Except Failure Int)
    (code : α → Int) (members : List α) : Prop where
  hash_eq : ∀ a ∈ members, hash a =
    (content a).requireHashable.map fun _ => code a
  code_eq : ∀ a ∈ members, ∀ b ∈ members, (content a).unhashable? = none →
    (content b).unhashable? = none → (a == b) = true → code a = code b

/-- Looking for the hash first finds the same members. -/
theorem keepByHash_eq {kept : List α} {a : α} {members : List α}
    (h : HashesBy content hash code members) (ha : a ∈ members)
    (hkept : ∀ k ∈ kept, k ∈ members ∧ (content k).unhashable? = none) :
    keepByHash hash (kept.map fun k => (code k, k)) a =
      (keepSupplied content kept (.ok a)).map
        (List.map fun k => (code k, k)) := by
  cases hfixed : (content a).unhashable? with
  | some type =>
      rw [keepSupplied_error kept hfixed, keepByHash, h.hash_eq a ha,
        Value.requireHashable, hfixed]
      rfl
  | none =>
      have hany : (kept.map fun k => (code k, k)).any
          (fun entry => entry.1 == code a && entry.2 == a) =
            kept.any (· == a) := by
        rw [List.any_map, Bool.eq_iff_iff, List.any_eq_true, List.any_eq_true]
        refine exists_congr fun k => and_congr_right fun hk => ?_
        rw [Function.comp_apply, Bool.and_eq_true, beq_iff_eq,
          and_iff_right_iff_imp]
        exact h.code_eq k (hkept k hk).1 a ha (hkept k hk).2 hfixed
      rw [keepSupplied_ok kept hfixed, keepByHash, h.hash_eq a ha]
      simp only [Value.requireHashable, hfixed, Except.map, bind, Except.bind,
        pure, Except.pure, hany, keepFirst]
      split
      · rfl
      · rw [List.map_append, List.map_singleton]

theorem foldlM_keepByHash {members rest kept : List α}
    (h : HashesBy content hash code members) (hrest : rest ⊆ members)
    (hkept : ∀ k ∈ kept, k ∈ members ∧ (content k).unhashable? = none) :
    rest.foldlM (keepByHash hash) (kept.map fun k => (code k, k)) =
      ((rest.map .ok).foldlM (keepSupplied content) kept).map
        (List.map fun k => (code k, k)) := by
  induction rest generalizing kept with
  | nil => rfl
  | cons a rest ih =>
      rw [List.map_cons, List.foldlM_cons, List.foldlM_cons,
        keepByHash_eq h (hrest List.mem_cons_self) hkept]
      cases hfixed : (content a).unhashable? with
      | some type =>
          rw [keepSupplied_error kept hfixed]
          rfl
      | none =>
          rw [keepSupplied_ok kept hfixed]
          refine ih (List.subset_of_cons_subset hrest) fun k hk => ?_
          rcases mem_keepFirst hk with hk | rfl
          · exact hkept k hk
          · exact ⟨hrest List.mem_cons_self, hfixed⟩

theorem distinctByHash_eq {members : List α}
    (h : HashesBy content hash code members) :
    distinctByHash hash members =
      distinctMembers content (members.map .ok) := by
  have hfold : members.foldlM (keepByHash hash) [] =
      ((members.map .ok).foldlM (keepSupplied content) []).map
        (List.map fun k => (code k, k)) :=
    foldlM_keepByHash h (List.Subset.refl _) (List.forall_mem_nil _)
  rw [distinctByHash, distinctMembers, hfold]
  cases (members.map .ok).foldlM (keepSupplied content) [] with
  | error failure => rfl
  | ok kept =>
      simp [Except.map, bind, Except.bind, pure, Except.pure,
        Function.comp_def]

end Hashes

namespace Hashing

variable (h : Hashing)

/-- The hashes of the built-in classes agree with equality on null and on
scalars. -/
def Agrees : Prop :=
  ∀ a b : Value, a.isScalar = true → b.isScalar = true → a.same b = true →
    h.builtin a = h.builtin b

/-- The hash of a value that has one. -/
def code : Value → Int
  | .node n => h.leaf n
  | v => h.builtin v

def typedCode (t : TypedValue) : Int :=
  h.tuple [h.code t.value, h.builtin (.text (Text.ofString t.kind))]

variable {h}

theorem leaf_eq_of_same (hagrees : h.Agrees) {m n : Node}
    (hm : m.isLeaf = true) (hsame : m.same n = true) :
    h.leaf m = h.leaf n := by
  have hclass : m.classOf = n.classOf ∧ m.native.isScalar = true ∧
      n.native.isScalar = true := by
    cases m with
    | array | object => cases hm
    | _ => cases n <;> first | exact ⟨rfl, rfl, rfl⟩ | cases hsame
  obtain ⟨hclass, hscalar, hscalar'⟩ := hclass
  rw [leaf, leaf, hclass, hagrees _ _ hscalar hscalar'
    (Node.same_native m n hsame)]

/-- Equal values of the classes that elements have are hashed alike. -/
theorem code_eq_of_same (hagrees : h.Agrees) {a b : Value}
    (ha : a.isComparable = true) (hb : b.isComparable = true)
    (hfixed : a.unhashable? = none) (hsame : a.same b = true) :
    h.code a = h.code b := by
  cases a with
  | node m =>
      cases b with
      | node n =>
          have hm : m.isLeaf = true := by
            simpa [Value.unhashable?, Node.isLeaf] using hfixed
          exact leaf_eq_of_same hagrees hm hsame
      | _ => cases hsame
  | null | text | boolean | integer | number =>
      cases b with
      | null | text | boolean | integer | number =>
          exact hagrees _ _ rfl rfl hsame
      | node => cases hsame
      | _ => cases hb
  | _ => cases ha

theorem node_eq (n : Node) :
    h.node n = (Value.node n).requireHashable.map fun _ => h.leaf n := by
  unfold node Value.requireHashable Value.unhashable?
  cases n.isContainer <;> rfl

theorem value_eq (v : Value) : h.value v = v.requireHashable.map fun _ =>
    h.code v := by
  cases v with
  | node n => exact node_eq n
  | _ =>
      unfold value code
      dsimp only
      generalize Value.requireHashable _ = checked
      cases checked <;> rfl

theorem typed_eq (t : TypedValue) :
    h.typed t = t.value.requireHashable.map fun _ => h.typedCode t := by
  rw [typed, value_eq]
  cases t.value.requireHashable <;> rfl

theorem hashesBy_node (hagrees : h.Agrees) (nodes : List Node) :
    HashesBy Value.node h.node h.leaf nodes where
  hash_eq n _ := node_eq n
  code_eq m _ n _ hfixed _ hsame :=
    code_eq_of_same (a := .node m) (b := .node n) hagrees rfl rfl hfixed hsame

theorem hashesBy_typed (hagrees : h.Agrees) {members : List TypedValue}
    (hcomparable : ∀ t ∈ members, t.value.isComparable = true) :
    HashesBy TypedValue.value h.typed h.typedCode members where
  hash_eq t _ := typed_eq t
  code_eq t ht u hu hfixed _ hsame := by
    obtain ⟨hvalue, htag⟩ := TypedValue.same_iff.1 hsame
    rw [typedCode, typedCode, TypedValue.kind, TypedValue.kind, htag,
      code_eq_of_same hagrees (hcomparable t ht)
        (hcomparable u hu) hfixed hvalue]

/-! ## Hashes by quantity -/

section Concrete

/-- Numbers are hashed modulo this prime. -/
def modulus : ℕ :=
  2 ^ 61 - 1

def quantityCode : Quantity → ℤ
  | .infinite negative => if negative then -314159 else 314159
  | .finite q =>
    let residue : ZMod modulus := q.num.natAbs * (q.den : ZMod modulus)⁻¹
    let code : ℤ := if q < 0 then -residue.val else residue.val
    if code = -1 then -2 else code

/-- Texts are hashed with a secret that differs from run to run; any function
of the text stands for it. -/
def textCode (t : Text) : ℤ :=
  t.points.foldl (fun acc point => (acc * 1000003 + point.code) % modulus) 0

def tupleCode (items : List ℤ) : ℤ :=
  let mix (acc : UInt64) (item : ℤ) : UInt64 :=
    let sum := acc + UInt64.ofBitVec
      (BitVec.ofInt 64 item) * 14029467366897019727
    (sum <<< 31 ||| sum >>> 33) * 11400714785074694791
  let acc := items.foldl mix 2870177450012600261
  let code := acc + (UInt64.ofNat items.length ^^^
    (2870177450012600261 ^^^ 3527539))
  if code = 18446744073709551615 then 1546275796 else code.toBitVec.toInt

/-- Null has a constant, a number the residue of its exact value, and a tuple a
mixture of the hashes of its items.  Any constant serves for null: nothing else
is equal to it. -/
def byQuantity : Hashing where
  builtin v :=
    match v.key? with
    | some .null => 4238894208
    | some (.text t) => textCode t
    | some (.quantity q) => quantityCode q
    | _ => 0
  tuple := tupleCode

theorem byQuantity_agrees : byQuantity.Agrees := by
  intro a b ha hb hsame
  obtain ⟨ha', hb'⟩ := Value.isComparable_of_same ha hb hsame
  have hfixed : ∀ v : Value, v.isScalar = true → v.container? = none := by
    intro v hv
    cases v <;> first | rfl | cases hv
  have hkey := (Value.same_iff_key?_eq ha' (hfixed a ha) hb'
    (hfixed b hb)).1 hsame
  simp only [byQuantity, hkey]

end Concrete

/-- Removing duplicates through hash and equality fails at the first container
node, which it names by its class, and keeps of every class of equal members
the first and no other, for nodes and for typed values of any tag that hold
null, scalars other than not-a-number, or nodes.  So does testing equality
alone.  Scalars that are numbers are equal exactly if they stand for one
quantity, whatever their classes. -/
theorem removes_duplicates_exactly (hagrees : h.Agrees) :
    (∀ nodes : List Node,
      Deduplicates Value.node nodes (distinctByHash h.node nodes) ∧
      Value.distinct (nodes.map fun n => .ok (.node n)) =
        (distinctByHash h.node nodes).map (List.map .node)) ∧
    (∀ members : List TypedValue,
      (∀ t ∈ members, t.value.isComparable = true) →
      Deduplicates TypedValue.value members (distinctByHash h.typed members) ∧
      TypedValue.distinct (members.map .ok) = distinctByHash h.typed members) ∧
    ∀ (a b : Value) (p q : Quantity), a.quantity? = some p →
      b.quantity? = some q →
      ((TypedValue.scalar a == .scalar b) = true ↔ p = q) := by
  refine ⟨fun nodes => ?_, fun members hcomparable => ?_,
    fun a b p q hp hq => ?_⟩
  · rw [distinctByHash_eq (hashesBy_node hagrees nodes)]
    exact ⟨deduplicates_distinctMembers (fun _ _ => rfl) comparesKeys_node,
      distinct_node nodes⟩
  · rw [distinctByHash_eq (hashesBy_typed hagrees hcomparable)]
    exact ⟨deduplicates_distinctMembers hcomparable
      (comparesKeys_typedValue hcomparable), rfl⟩
  · exact TypedValue.same_iff.trans
      ((and_iff_left rfl).trans (Value.same_iff_quantity_eq hp hq))

/-- A truth value and an integer that are equal, a number and an integer that
are not although they round to one, leaves of two classes, and an array of the
derived class among leaves. -/
theorem removes_duplicates_exactly_across_classes :
    let large : FiniteBinary64 := ⟨false, 4503599627370496, 1, by decide⟩
    let members : List TypedValue :=
      [.scalar (.boolean true), .scalar (.number (.finite large)),
        .scalar (.integer 1), .scalar (.integer 9007199254740993),
        .node (.node (.integer 0)), .node (.node (.number (.zero true))),
        .node (.node (.number (.zero false)))]
    let nodes : List Node :=
      [.text "a", .array .derived none [], .object none []]
    byQuantity.Agrees ∧ (∀ t ∈ members, t.value.isComparable = true) ∧
      distinctByHash byQuantity.typed members =
        .ok [.scalar (.boolean true), .scalar (.number (.finite large)),
          .scalar (.integer 9007199254740993), .node (.node (.integer 0)),
          .node (.node (.number (.zero true)))] ∧
      distinctByHash byQuantity.node nodes =
        .error (.value (.unhashable .derivedArray)) := by
  intro large members nodes
  obtain ⟨hnodes, htyped, -⟩ := removes_duplicates_exactly byQuantity_agrees
  have hcomparable : ∀ t ∈ members, t.value.isComparable = true := by decide
  refine ⟨byQuantity_agrees, hcomparable, ?_, (hnodes nodes).1.fails _ rfl⟩
  rw [← (htyped members hcomparable).2]
  subst members large
  rfl

end Hashing

end IndexAccess
