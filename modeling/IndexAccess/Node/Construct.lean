import IndexAccess.Node.Native
import IndexAccess.Value.Conversion
import IndexAccess.Value.Distinct

/-!
# Constructing nodes

Each node class builds a node from at most one argument.  A leaf converts its
argument to the scalar that it holds.  An array takes the members of its
argument, which have to be nodes.  An object takes the entries of a dictionary,
or makes a dictionary of a sequence of pairs first; its values have to be
nodes, but its keys are taken as they are.

The class of leaves in general holds its argument as it is, and the class of
all nodes builds nothing.
-/

namespace IndexAccess

inductive NodeClass where
  | any
  | leaf
  | text
  | integer
  | number
  | boolean
  | null
  | array (style : ArrayStyle)
  | object
deriving DecidableEq, Repr

def NodeClass.classOf : NodeClass → Class
  | any => .node
  | leaf => .valueNode
  | text => .textNode
  | integer => .integerNode
  | number => .numberNode
  | boolean => .booleanNode
  | null => .nullNode
  | array style => Node.arrayClass style
  | object => .objectNode

namespace Value

/-- The members that a value yields one after the other. -/
def members : Value → Except Failure (List Value)
  | list items | tuple items => .ok items
  | dict entries | mapping entries => .ok (Entries.keys entries)
  | text s => .ok (s.points.map fun point => text ⟨[point]⟩)
  | bytes b => .ok (b.map fun byte => integer byte.toNat)
  | node (.array _ _ items) => .ok (items.map node)
  | foreign .set | foreign .frozenSet | foreign .byteArray | foreign .range =>
    .ok []
  | v => .error (.value (.notIterable v.classOf))

/-- A member of a sequence as a key and its value. -/
def asPair (position : Nat) (member : Value) :
    Except Failure (Value × Value) :=
  match member.members with
  | .ok [key, value] => .ok (key, value)
  | .ok parts => .error (.value (.noPair position parts.length))
  | .error _ => .error (.value (.noSequence position))

/-- The entries that are there with those of a sequence of pairs put after
them; the position counts the pairs. -/
def putPairs : (position : Nat) →
    (before : List (Value × Value)) → List Value →
    Except Failure (List (Value × Value))
  | _, before, [] => .ok before
  | position, before, member :: rest => do
    let (key, value) ← asPair position member
    key.requireHashable
    putPairs (position + 1) (Entries.put key value before) rest

/-- The entries of the dictionary that a value makes; nothing that is false has
any. -/
def toEntries (v : Value) : Except Failure (List (Value × Value)) :=
  if !v.truth then .ok []
  else
    match v.entries? with
    | some entries => .ok entries
    | none => do putPairs 0 [] (← v.members)

end Value

/-- What a class builds: a node, a leaf of no particular type, or an object of
which some key is no text. -/
inductive Construction where
  | node (n : Node)
  | leaf (content : Value)
  | keyed (entries : List (Value × Node))

namespace Construction

/-- A field whose key is a text. -/
def textField? : Value × Node → Option (Text × Node)
  | (.text name, n) => some (name, n)
  | _ => none

def ofEntries (entries : List (Value × Node)) : Construction :=
  match entries.mapM textField? with
  | some fields => node (.object none fields)
  | none => keyed entries

/-- The JSON type of a construction; a leaf of no particular type has an
unknown one. -/
def typeName : Construction → String
  | node n => n.typeName
  | leaf _ => "unknown"
  | keyed _ => "object"

def native : Construction → Value
  | node n => n.native
  | leaf content => content
  | keyed entries => .dict (entries.map fun (key, n) => (key, n.native))

def display : Construction → Except Failure String
  | node n => n.display
  | leaf content => shownAs .valueNode content
  | keyed entries => shownAs .objectNode (keyed entries).native
where
  shownAs (type : Class) (native : Value) : Except Failure String := do
    return type.name ++ enclosed "(" ")" [← native.display]

end Construction

namespace Node

/-- A member that has to be a node. -/
def ofMember : Value → Except Failure Node
  | .node n => .ok n
  | v => .error (.value (.noMember v.classOf "to_json_native"))

def ofMembers (style : ArrayStyle) (arg : Value) : Except Failure Node := do
  let members ← arg.members
  return array style none (← members.mapM ofMember)

def ofFields (arg : Value) : Except Failure Construction := do
  let entries ← arg.toEntries
  let fields ← entries.mapM fun (key, value) => do
    return (key, ← ofMember value)
  return .ofEntries fields

def construct : NodeClass → Value → Except Failure Construction
  | .any, _ => .error (.value (.noArguments .node))
  | .leaf, arg => .ok (.leaf arg)
  | .text, arg => do return .node (text (← arg.toText))
  | .integer, arg => do return .node (integer (← arg.toInteger))
  | .number, arg => do return .node (← ofNumber arg (← arg.toNumber))
  | .boolean, arg => .ok (.node (boolean arg.truth))
  | .null, _ => .error (.value (.excessArgument .nullNode))
  | .array style, arg => do return .node (← ofMembers style arg)
  | .object, arg => ofFields arg

def constructEmpty : NodeClass → Except Failure Node
  | .any => .error (.value (.abstractClass .node "to_json_native"))
  | .null => .ok null
  | .array style => .ok (array style none [])
  | .object => .ok (object none [])
  | type => .error (.value (.missingArgument type.classOf "raw"))

end Node
end IndexAccess
