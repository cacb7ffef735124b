import IndexAccess.Value.Conversion
import IndexAccess.Value.Distinct

/-!
# Value expressions

A value is given by an expression: a scalar, an integer as it is written, a
container of expressions, a node that is built from another value, or a
variable.  Parts are evaluated from left to right.  The entries of a dictionary
are put one after the other, each after its key and its value have been
evaluated; the key has to be a fixed value.  Of several entries with equal keys
the last value counts, under the first key.
-/

namespace IndexAccess

inductive Expression where
  | scalar (value : Value)
  | integer (written : Text)
  | list (items : List Expression)
  | tuple (items : List Expression)
  | dict (entries : List (Expression × Expression))
  | mapping (entries : List (Expression × Expression))
  | node (content : Expression)
  | derivedArray (items : List Expression)
  | stored (name : String)

instance : Inhabited Expression := ⟨.scalar .null⟩

namespace Expression

mutual

def eval (bindings : List (String × Value)) : Expression → Except Failure Value
  | scalar value => .ok value
  | integer written => do return .integer (← Value.integerOfText written)
  | list items => do return .list (← evalItems bindings items)
  | tuple items => do return .tuple (← evalItems bindings items)
  | dict entries => do return .dict (← evalEntries bindings [] entries)
  | mapping entries => do return .mapping (← evalEntries bindings [] entries)
  | node content => do return .node (← Node.ofValue (← eval bindings content))
  | derivedArray items => do
    return .node (.array .derived none (← evalNodes bindings items))
  | stored name =>
    match Entries.get? bindings name with
    | some value => .ok value
    | none => .error (.value (.missingKey (Text.quoted name)))

def evalItems (bindings : List (String × Value)) :
    List Expression → Except Failure (List Value)
  | [] => .ok []
  | item :: rest => do
    let value ← eval bindings item
    let values ← evalItems bindings rest
    return value :: values

def evalNodes (bindings : List (String × Value)) :
    List Expression → Except Failure (List Node)
  | [] => .ok []
  | item :: rest => do
    let value ← eval bindings item
    let node ← Node.ofValue value
    let nodes ← evalNodes bindings rest
    return node :: nodes

/-- The entries that are there with those of the expressions put after them. -/
def evalEntries (bindings : List (String × Value)) :
    (before : List (Value × Value)) → List (Expression × Expression) →
      Except Failure (List (Value × Value))
  | before, [] => .ok before
  | before, (key, item) :: rest => do
    let keyValue ← eval bindings key
    let value ← eval bindings item
    keyValue.requireHashable
    evalEntries bindings (Entries.put keyValue value before) rest

end

end Expression
end IndexAccess
