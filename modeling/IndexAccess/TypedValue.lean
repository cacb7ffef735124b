import IndexAccess.Node.Native
import IndexAccess.Value.Equality

/-!
# Typed values

Reading an index yields a typed value: null, a decoded scalar, or a container
left as a node.
-/

namespace IndexAccess

inductive ValueKind where
  | null
  | scalar
  | node
deriving DecidableEq, Repr

def ValueKind.text : ValueKind → String
  | null => "null"
  | scalar => "scalar"
  | node => "node"

/-- A value with a tag; nothing ties the tag to the value. -/
structure TypedValue where
  value : Value
  tag : ValueKind

namespace TypedValue

def null : TypedValue :=
  ⟨.null, .null⟩

def scalar (value : Value) : TypedValue :=
  ⟨value, .scalar⟩

def node (value : Value) : TypedValue :=
  ⟨value, .node⟩

/-- The tag of a typed value, as text. -/
def kind (t : TypedValue) : String :=
  t.tag.text

def isNull (t : TypedValue) : Bool :=
  t.tag == .null

def isNode (t : TypedValue) : Bool :=
  t.tag == .node

def native (t : TypedValue) : Value :=
  match t.value with
  | .node n => n.native
  | v => v

/-- An element of an array as it is read: an absent element and a null leaf are
null, another leaf gives its scalar, and a container stays a node. -/
def ofElement : Option Node → TypedValue
  | none => null
  | some n =>
    if n.isNull then null
    else if n.isLeaf then scalar n.native
    else node (.node n)

/-- The tag and the value have to agree. -/
def same (t u : TypedValue) : Bool :=
  t.value.same u.value && t.tag == u.tag

instance : BEq TypedValue := ⟨same⟩

theorem same_iff {t u : TypedValue} :
    t.same u = true ↔ t.value.same u.value = true ∧ t.tag = u.tag := by
  simp [same]

def display (t : TypedValue) : Except Failure String := do
  let shown ← t.value.display
  return s!"TypedValue(value={shown}, kind='{t.kind}')"

/-- The typed value of a value that an expression supplies as an element. -/
def ofValue : Value → Except Failure TypedValue
  | .null => .ok null
  | .node n => .ok (ofElement (some n))
  | v => .error (.value (.noMember v.classOf "is_null"))

end TypedValue
end IndexAccess
