import IndexAccess.Value.Display

/-!
# Nodes and their native forms

The native form of a node is the value it stands for: a scalar, a list of
native forms, or a dictionary from names to native forms.  Conversely a value
becomes a node by copying lists, tuples and mappings; a node inside a value
stays as it is.  Mappings need texts as keys, numbers have to be finite, and no
other value has a node.
-/

namespace IndexAccess
namespace Node

mutual

def native : Node → Value
  | text s => .text s
  | integer i => .integer i
  | number x => .number (.finite x)
  | boolean b => .boolean b
  | null => .null
  | array _ _ items => .list (nativeItems items)
  | object _ fields => .dict (nativeFields fields)

def nativeItems : List Node → List Value
  | [] => []
  | item :: rest => native item :: nativeItems rest

def nativeFields : List (Text × Node) → List (Value × Value)
  | [] => []
  | (name, item) :: rest => (.text name, native item) :: nativeFields rest

end

/-- A finite number as a leaf; `source` is the value it came from. -/
def ofNumber (source : Value) : Binary64 → Except Failure Node
  | .finite x => .ok (number x)
  | _ => do
    let shown ← source.display
    throw (.index (.unrepresentable (.notFinite source.classOf shown)))

/-- The name that a key of a mapping gives to a field. -/
def fieldName : Value → Except Failure Text
  | .text name => .ok name
  | key => do
    let shown ← key.display
    throw (.index (.unrepresentable (.keyNotText key.classOf shown)))

mutual

def ofValue : Value → Except Failure Node
  | .node n => .ok n
  | .null => .ok null
  | .boolean b => .ok (boolean b)
  | .integer i => .ok (integer i)
  | .number x => ofNumber (.number x) x
  | .text s => .ok (text s)
  | .list items | .tuple items => do
    let nodes ← ofItems items
    return array .plain none nodes
  | .dict entries | .mapping entries => do
    let fields ← ofEntries entries
    return object none fields
  | .bytes b =>
    .error (.index (.unrepresentable
      (.noRepresentation (Value.bytes b).classOf)))
  | .foreign kind =>
    .error (.index (.unrepresentable (.noRepresentation kind.classOf)))

def ofItems : List Value → Except Failure (List Node)
  | [] => .ok []
  | item :: rest => do
    let node ← ofValue item
    let nodes ← ofItems rest
    return node :: nodes

/-- A key is examined before its value. -/
def ofEntries : List (Value × Value) → Except Failure (List (Text × Node))
  | [] => .ok []
  | (key, item) :: rest => do
    let name ← fieldName key
    let node ← ofValue item
    let fields ← ofEntries rest
    return (name, node) :: fields

end

def scalar (n : Node) : Except Failure Value :=
  if n.isLeaf then .ok n.native
  else
    .error (.index (.general
      s!"Cannot decode container node of type '{n.typeName}' as a scalar"))

end Node

def Node.display (n : Node) : Except Failure String :=
  (Value.node n).display

end IndexAccess
