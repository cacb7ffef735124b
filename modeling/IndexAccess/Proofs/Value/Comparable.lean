import IndexAccess.Proofs.Value.Quantity
import IndexAccess.Value.Distinct

/-!
# Comparable values

Null, texts, truth values, integers, numbers other than not-a-number and leaves
each have a key, and two of them are equal exactly if their keys coincide.  On
these values equality is therefore an equivalence, although it crosses the
classes of numbers and does not cross the classes of leaves.
-/

namespace IndexAccess
namespace Value

/-- Null or a scalar. -/
def isScalar : Value → Bool
  | null | text _ | boolean _ | integer _ | number _ => true
  | _ => false

/-- Null, a scalar other than not-a-number, or a node. -/
def isComparable : Value → Bool
  | null | text _ | boolean _ | integer _ | node _ => true
  | number x => x != .nan
  | _ => false

/-- The container node that a value is. -/
def container? : Value → Option Node
  | node n => if n.isContainer then some n else none
  | _ => none

theorem unhashable?_of_isComparable {v : Value} (h : v.isComparable = true) :
    v.unhashable? = v.container?.map Node.classOf := by
  cases v with
  | node n =>
      rw [unhashable?, container?]
      split <;> rfl
  | null | text | boolean | integer | number => rfl
  | _ => cases h

inductive Key where
  | null
  | text (value : Text)
  | quantity (value : Quantity)
  | leaf (form : CanonicalForm)

def key? : Value → Option Key
  | null => some .null
  | text t => some (.text t)
  | node n => if n.isLeaf then some (.leaf n.canonicalForm) else none
  | v => v.quantity?.map .quantity

theorem exists_key? {v : Value} (h : v.isComparable = true)
    (hcontainer : v.container? = none) :
    ∃ k, v.key? = some k := by
  cases v with
  | null | text | boolean | integer => exact ⟨_, rfl⟩
  | number x =>
      cases x with
      | nan => cases h
      | _ => exact ⟨_, rfl⟩
  | node n =>
      cases n with
      | array | object => cases hcontainer
      | _ => exact ⟨_, rfl⟩
  | _ => cases h

/-- How a value comes by its key. -/
inductive HasKey : Value → Key → Prop
  | null : HasKey .null .null
  | text (t : Text) : HasKey (.text t) (.text t)
  | quantity {v : Value} {q : Quantity}
    (h : v.quantity? = some q) : HasKey v (.quantity q)
  | leaf {n : Node}
    (h : n.isLeaf = true) : HasKey (.node n) (.leaf n.canonicalForm)

theorem hasKey_of_key? {v : Value} {k : Key} (h : v.key? = some k) :
    HasKey v k := by
  cases v with
  | null =>
      obtain rfl := Option.some.inj h
      exact .null
  | text t =>
      obtain rfl := Option.some.inj h
      exact .text t
  | node n =>
      rw [key?, Option.ite_none_right_eq_some] at h
      obtain ⟨hleaf, hform⟩ := h
      obtain rfl := Option.some.inj hform
      exact .leaf hleaf
  | _ =>
      simp only [key?, Option.map_eq_some_iff] at h
      obtain ⟨q, hq, rfl⟩ := h
      exact .quantity hq

theorem isSome_numeric?_of_quantity? {v : Value} {q : Quantity}
    (h : v.quantity? = some q) :
    v.numeric?.isSome = true := by
  obtain ⟨x, hx, -⟩ := Option.bind_eq_some_iff.1 h
  rw [hx, Option.isSome_some]

/-- A number does not equal what is no number. -/
theorem samePlain_eq_false {a b : Value}
    (h : a.numeric?.isSome = !b.numeric?.isSome) :
    a.samePlain b = false := by
  unfold samePlain
  cases ha : a.numeric? with
  | some x =>
      cases hb : b.numeric? with
      | some y => simp [ha, hb] at h
      | none =>
          dsimp only
          split <;> first | rfl | cases ha
  | none =>
      cases hb : b.numeric? with
      | none => simp [ha, hb] at h
      | some y =>
          dsimp only
          split <;> first | rfl | cases hb

section Keys

variable {a b : Value} {k l : Key}

theorem HasKey.same_eq (h : a.HasKey k) (b : Value) :
    a.same b = a.samePlain b := by
  cases h with
  | quantity hq =>
      have hnumeric := isSome_numeric?_of_quantity? hq
      cases a <;> first | rfl | cases hnumeric
  | _ => rfl

theorem HasKey.same_iff (ha : a.HasKey k) (hb : b.HasKey l) :
    a.same b = true ↔ k = l := by
  have hmixed (h : a.numeric?.isSome = !b.numeric?.isSome) :
      ¬a.same b = true := by
    rw [ha.same_eq, samePlain_eq_false h]
    exact Bool.false_ne_true
  cases ha with
  | quantity hp =>
      cases hb with
      | quantity hq => simpa using same_iff_quantity_eq hp hq
      | _ =>
          have hquantity := hmixed (isSome_numeric?_of_quantity? hp)
          exact iff_of_false hquantity (by simp)
  | null | text =>
      cases hb with
      | quantity hq =>
          refine iff_of_false (hmixed ?_) (by simp)
          rw [isSome_numeric?_of_quantity? hq]
          rfl
      | _ => simp [same, samePlain, numeric?]
  | leaf hm =>
      cases hb with
      | quantity hq =>
          refine iff_of_false (hmixed ?_) (by simp)
          rw [isSome_numeric?_of_quantity? hq]
          rfl
      | leaf hn =>
          have hform := Node.same_iff_canonicalForm_eq _ _
            (Node.hasDistinctNames_of_isLeaf hm)
            (Node.hasDistinctNames_of_isLeaf hn)
          simpa [same, samePlain, numeric?] using hform
      | _ => simp [same, samePlain, numeric?]

/-- Comparable values that are no containers are equal exactly if their keys
coincide. -/
theorem same_iff_key?_eq (ha : a.isComparable = true)
    (hfixed : a.container? = none) (hb : b.isComparable = true)
    (hfixed' : b.container? = none) :
    a.same b = true ↔ a.key? = b.key? := by
  obtain ⟨k, hk⟩ := exists_key? ha hfixed
  obtain ⟨l, hl⟩ := exists_key? hb hfixed'
  rw [(hasKey_of_key? hk).same_iff (hasKey_of_key? hl), hk, hl,
    Option.some.injEq]

/-- Only not-a-number among the scalars equals nothing. -/
theorem isComparable_of_same (ha : a.isScalar = true) (hb : b.isScalar = true)
    (hsame : a.same b = true) :
    a.isComparable = true ∧ b.isComparable = true := by
  constructor
  · cases a with
    | number x =>
        cases x with
        | nan => cases b <;> first | cases hsame | cases hb
        | _ => rfl
    | null | text | boolean | integer => rfl
    | _ => cases ha
  · cases b with
    | number y =>
        cases y with
        | nan =>
            cases a with
            | number x => cases x <;> cases hsame
            | _ => first | cases hsame | cases ha
        | _ => rfl
    | null | text | boolean | integer => rfl
    | _ => cases hb

end Keys

end Value

end IndexAccess
