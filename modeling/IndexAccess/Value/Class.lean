/-!
# Classes of values

Every value has one class.  Classes are ordered under `anything`: the node
classes lie under `node`, truth values under the integers, and the array class
with members of its own under the plain array class.  Accessors name the
classes of the targets they handle.

A program may declare further classes, each under any number of others that are
declared before it.  Two declarations are two classes, even if they give the
same name; their labels tell them apart.
-/

namespace IndexAccess

/-- A class that a program declares, with the declared classes it is derived
from. -/
inductive DeclaredClass where
  | declare (label : Nat) (origin name : String) (bases : List DeclaredClass)
deriving Repr

namespace DeclaredClass

mutual

def decEq : (c d : DeclaredClass) → Decidable (c = d)
  | declare i m s cs, declare j n t ds =>
    match decEqAll cs ds with
    | isTrue hbases =>
      if hown : i = j ∧ m = n ∧ s = t then
        isTrue (by rw [hown.1, hown.2.1, hown.2.2, hbases])
      else isFalse (by rintro ⟨⟩; exact hown ⟨rfl, rfl, rfl⟩)
    | isFalse hbases => isFalse (by rintro ⟨⟩; exact hbases rfl)

def decEqAll : (cs ds : List DeclaredClass) → Decidable (cs = ds)
  | [], [] => isTrue rfl
  | [], _ :: _ | _ :: _, [] => isFalse (by simp)
  | c :: cs, d :: ds =>
    match decEq c d, decEqAll cs ds with
    | isTrue hfirst, isTrue hrest => isTrue (by rw [hfirst, hrest])
    | isFalse hfirst, _ => isFalse (by simp [hfirst])
    | _, isFalse hrest => isFalse (by simp [hrest])

end

instance : DecidableEq DeclaredClass := decEq

/-- The module where a class is declared. -/
def origin : DeclaredClass → String
  | declare _ origin _ _ => origin

def name : DeclaredClass → String
  | declare _ _ name _ => name

mutual

/-- The declared classes that a class is derived from, directly or not. -/
def ancestors : DeclaredClass → List DeclaredClass
  | declare _ _ _ bases => withAncestors bases

def withAncestors : List DeclaredClass → List DeclaredClass
  | [] => []
  | c :: rest => c :: (ancestors c ++ withAncestors rest)

end

end DeclaredClass

inductive Class where
  | anything
  | none
  | boolean
  | integer
  | number
  | text
  | bytes
  | list
  | tuple
  | dict
  | mapping
  | set
  | frozenSet
  | complex
  | byteArray
  | range
  | node
  | valueNode
  | textNode
  | integerNode
  | numberNode
  | booleanNode
  | nullNode
  | arrayNode
  | derivedArray
  | objectNode
  | declared (type : DeclaredClass)
deriving DecidableEq, Repr

namespace Class

def name : Class → String
  | anything => "object"
  | none => "NoneType"
  | boolean => "bool"
  | integer => "int"
  | number => "float"
  | text => "str"
  | bytes => "bytes"
  | list => "list"
  | tuple => "tuple"
  | dict => "dict"
  | mapping => "mappingproxy"
  | set => "set"
  | frozenSet => "frozenset"
  | complex => "complex"
  | byteArray => "bytearray"
  | range => "range"
  | node => "JsonNode"
  | valueNode => "ValueNode"
  | textNode => "TextNode"
  | integerNode => "IntNode"
  | numberNode => "FloatNode"
  | booleanNode => "BooleanNode"
  | nullNode => "NullNode"
  | arrayNode => "ArrayNode"
  | derivedArray => "SubArray"
  | objectNode => "ObjectNode"
  | declared type => type.name

/-- The proper superclasses. -/
def ancestors : Class → List Class
  | anything => []
  | declared type => type.ancestors.map declared ++ [anything]
  | boolean => [integer, anything]
  | textNode | integerNode | numberNode | booleanNode | nullNode =>
    [valueNode, node, anything]
  | derivedArray => [arrayNode, node, anything]
  | valueNode | arrayNode | objectNode => [node, anything]
  | _ => [anything]

def isUnder (c d : Class) : Bool :=
  c == d || c.ancestors.contains d

def isNode (c : Class) : Bool :=
  c.isUnder node

/-- Declared classes lie under declared classes and under `anything` only. -/
theorem isUnder_declared_eq_false (type : DeclaredClass) {c : Class}
    (hanything : c ≠ anything) (hdeclared : ∀ other, declared other ≠ c) :
    (declared type).isUnder c = false := by
  simp [isUnder, ancestors, hdeclared type, hanything, hdeclared]

theorem isNode_declared (type : DeclaredClass) :
    (declared type).isNode = false :=
  isUnder_declared_eq_false type nofun nofun

/-- The module where a class is defined. -/
def origin : Class → String
  | declared type => type.origin
  | c => if c.isNode then "jsonindex.value_model" else "builtins"

/-- The name of a class with the module where it is defined. -/
def qualifiedName (c : Class) : String :=
  c.origin ++ "." ++ c.name

end Class
end IndexAccess
