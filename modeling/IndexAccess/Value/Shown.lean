import IndexAccess.Binary64.Layout
import IndexAccess.Number.IntegerText
import IndexAccess.Text.Quoted
import IndexAccess.Value.Basic

/-!
# Values as they are shown in messages

Messages show a value the way it would be written in an expression: texts
quoted, containers between their brackets, and a node by its class and its
native form.
-/

namespace IndexAccess

/-- Items between two brackets. -/
def enclosed (opening closing : String) (items : List String) : String :=
  opening ++ ", ".intercalate items ++ closing

def shownBoolean (b : Bool) : String :=
  if b then "True" else "False"

namespace Node

mutual

/-- The native form of a node as it is shown. -/
def shownNative : Node → String
  | text s => Text.quoted s
  | integer i => Number.integerText i
  | number x => (Binary64.finite x).text
  | boolean b => shownBoolean b
  | null => "None"
  | array _ _ items => enclosed "[" "]" (shownItems items)
  | object _ fields => enclosed "\x7b" "\x7d" (shownFields fields)

def shownItems : List Node → List String
  | [] => []
  | item :: rest => shownNative item :: shownItems rest

def shownFields : List (Text × Node) → List String
  | [] => []
  | (name, item) :: rest =>
    (Text.quoted name ++ ": " ++ shownNative item) :: shownFields rest

end

def shown : Node → String
  | null => Class.nullNode.name
  | n => n.classOf.name ++ enclosed "(" ")" [n.shownNative]

mutual

/-- Whether every integer in a node can be written. -/
def isWritable : Node → Bool
  | integer i => Number.isWritable i
  | array _ _ items => areWritable items
  | object _ fields => fieldsWritable fields
  | _ => true

def areWritable : List Node → Bool
  | [] => true
  | item :: rest => isWritable item && areWritable rest

def fieldsWritable : List (Text × Node) → Bool
  | [] => true
  | (_, item) :: rest => isWritable item && fieldsWritable rest

end

end Node

def Foreign.shown : Foreign → String
  | thing => "<object object>"
  | set => "set()"
  | frozenSet => "frozenset()"
  | complex => "0j"
  | byteArray => "bytearray(b'')"
  | range => "range(0, 0)"
  | object _ (.ok text) => text
  | object _ (.error _) => ""

namespace Value

/-- A tuple of one item keeps its comma. -/
def shownTuple : List String → String
  | [item] => "(" ++ item ++ ",)"
  | items => enclosed "(" ")" items

mutual

/-- A value as it is shown, whatever the size of its integers. -/
def shown : Value → String
  | null => "None"
  | boolean b => shownBoolean b
  | integer i => Number.integerText i
  | number x => x.text
  | text s => Text.quoted s
  | bytes b => Text.quotedBytes b
  | list items => enclosed "[" "]" (shownItems items)
  | tuple items => shownTuple (shownItems items)
  | dict entries => enclosed "\x7b" "\x7d" (shownEntries entries)
  | mapping entries =>
    "mappingproxy(" ++ enclosed "\x7b" "\x7d" (shownEntries entries) ++ ")"
  | foreign kind => kind.shown
  | node n => n.shown

def shownItems : List Value → List String
  | [] => []
  | item :: rest => shown item :: shownItems rest

def shownEntries : List (Value × Value) → List String
  | [] => []
  | (key, item) :: rest =>
    (shown key ++ ": " ++ shown item) :: shownEntries rest

end

end Value
end IndexAccess
