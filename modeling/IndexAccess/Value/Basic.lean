import IndexAccess.Binary64.Basic
import IndexAccess.Entries
import IndexAccess.Text.Basic
import IndexAccess.Value.Class

/-!
# Nodes and values

A node is a materialized JSON document: leaves hold one scalar, arrays hold
nodes in order, and objects hold nodes under names in insertion order.  A value
is whatever an expression can hand to index access as a target, an index or a
new value; nodes are values too.

Containers that several places share carry the same cell.  A cell is a name for
the container and is no part of its content.
-/

namespace IndexAccess

/-- The name of a shared container. -/
abbrev Cell := Nat

/-- Whether an array is a plain one or belongs to the derived array class. -/
inductive ArrayStyle where
  | plain
  | derived
deriving DecidableEq, Repr

inductive Node where
  | text (value : Text)
  | integer (value : Int)
  | number (value : FiniteBinary64)
  | boolean (value : Bool)
  | null
  | array (style : ArrayStyle) (cell : Option Cell) (items : List Node)
  | object (cell : Option Cell) (fields : List (Text × Node))

instance : Inhabited Node := ⟨.null⟩

/-- What code of a declared class raises: a class of failures and a message. -/
structure Raised where
  type : String
  message : String
deriving DecidableEq, Repr

/-- Values of classes that have no JSON meaning: builtin ones, each without
content, and objects of declared classes.  Of an object nothing but its class
counts, and what comes of the code of that class that shows it. -/
inductive Foreign where
  | thing
  | set
  | frozenSet
  | complex
  | byteArray
  | range
  | object (type : DeclaredClass) (shown : Except Raised String)

inductive Value where
  | null
  | boolean (value : Bool)
  | integer (value : Int)
  | number (value : Binary64)
  | text (value : Text)
  | bytes (value : List UInt8)
  | list (items : List Value)
  | tuple (items : List Value)
  | dict (entries : List (Value × Value))
  | mapping (entries : List (Value × Value))
  | foreign (kind : Foreign)
  | node (node : Node)

instance : Inhabited Value := ⟨.null⟩

namespace Foreign

def classOf : Foreign → Class
  | thing => .anything
  | set => .set
  | frozenSet => .frozenSet
  | complex => .complex
  | byteArray => .byteArray
  | range => .range
  | object type _ => .declared type

def isEmpty : Foreign → Bool
  | thing | object _ _ => false
  | _ => true

end Foreign

namespace Node

def arrayClass : ArrayStyle → Class
  | .plain => .arrayNode
  | .derived => .derivedArray

def classOf : Node → Class
  | text _ => .textNode
  | integer _ => .integerNode
  | number _ => .numberNode
  | boolean _ => .booleanNode
  | null => .nullNode
  | array style _ _ => arrayClass style
  | object _ _ => .objectNode

def typeName : Node → String
  | text _ => "string"
  | integer _ => "integer"
  | number _ => "number"
  | boolean _ => "boolean"
  | null => "null"
  | array _ _ _ => "array"
  | object _ _ => "object"

def isContainer : Node → Bool
  | array _ _ _ | object _ _ => true
  | _ => false

/-- Whether a node is a leaf, which holds one scalar. -/
def isLeaf (n : Node) : Bool :=
  !n.isContainer

def isNull : Node → Bool
  | null => true
  | _ => false

def size : Node → Nat
  | array _ _ items => items.length
  | object _ fields => fields.length
  | _ => 0

end Node

namespace Value

def classOf : Value → Class
  | null => .none
  | boolean _ => .boolean
  | integer _ => .integer
  | number _ => .number
  | text _ => .text
  | bytes _ => .bytes
  | list _ => .list
  | tuple _ => .tuple
  | dict _ => .dict
  | mapping _ => .mapping
  | foreign kind => kind.classOf
  | node n => n.classOf

/-- The items of a list or of a tuple. -/
def sequence? : Value → Option (List Value)
  | list items | tuple items => some items
  | _ => none

/-- The entries of a dictionary or of a read-only mapping. -/
def entries? : Value → Option (List (Value × Value))
  | dict entries | mapping entries => some entries
  | _ => none

/-- The truth of a value: zeros, nothing, and empty texts and containers are
false; a leaf node is true whatever it holds. -/
def truth : Value → Bool
  | null => false
  | boolean b => b
  | integer i => i != 0
  | number x => !x.isZero
  | text s => !s.isEmpty
  | bytes b => !b.isEmpty
  | list items | tuple items => !items.isEmpty
  | dict entries | mapping entries => !entries.isEmpty
  | foreign kind => !kind.isEmpty
  | node n => n.isLeaf || n.size != 0

end Value
end IndexAccess
