import IndexAccess.Node.Native

/-!
# Members of containers

An array holds its items in order and grows at the end; a position below zero
or beyond the last item is absent.  An object holds its fields in insertion
order, and setting a field again keeps its place.
-/

namespace IndexAccess
namespace Node

def itemAt? (items : List Node) (position : Int) : Option Node :=
  if position < 0 then none else items[position.toNat]?

def items? : Node → Option (List Node)
  | array _ _ items => some items
  | _ => none

def cell? : Node → Option Cell
  | array _ cell _ | object cell _ => cell
  | _ => none

def add (item : Node) : Node → Node
  | array style cell items => array style cell (items ++ [item])
  | n => n

/-- An object with a field put under a name. -/
def set (name : Text) (item : Node) : Node → Node
  | object cell fields => object cell (Entries.put name item fields)
  | n => n

def fieldNames : Node → List Text
  | object _ fields => Entries.keys fields
  | _ => []

theorem itemAt?_of_nonneg (items : List Node) {position : Int}
    (h : 0 ≤ position) :
    itemAt? items position = items[position.toNat]? := by
  simp [itemAt?, Int.not_lt.2 h]

theorem itemAt?_of_neg (items : List Node) {position : Int}
    (h : position < 0) :
    itemAt? items position = none := by
  simp [itemAt?, h]

end Node
end IndexAccess
