import IndexAccess.Node.Members
import IndexAccess.Value.Conversion
import IndexAccess.Value.Distinct

/-!
# Looking up members by any key

An array compares the key with zero and with its size before it takes an item,
so that a number beyond the array is merely absent while one within it has to
be an integer.  A read-only mapping is compared as its dictionary.  An object
takes any fixed key, and only texts can be names.
-/

namespace IndexAccess
namespace Node

def itemUnder (items : List Node) : Value → Except Failure (Option Node)
  | .integer i => .ok (itemAt? items i)
  | .boolean b => .ok (itemAt? items (if b then 1 else 0))
  | .number x =>
    if x.isBelow 0 || x.isAtLeast items.length then .ok none
    else .error (.value (.positionNotInteger "list" .number))
  | .mapping _ => .error (.value (.notComparable .dict .integer))
  | key => .error (.value (.notComparable key.classOf .integer))

def fieldUnder (fields : List (Text × Node)) :
    Value → Except Failure (Option Node)
  | .text name => .ok (Entries.get? fields name)
  | key => do
    key.requireHashable
    return none

def member (n : Node) (key : Value) : Except Failure (Option Node) :=
  match n with
  | array _ _ items => itemUnder items key
  | object _ fields => fieldUnder fields key
  | leaf => .error (.value (.noMember leaf.classOf "get"))

end Node

def Value.holdsMembers : Value → Bool
  | .node n => n.isContainer
  | v => v.entries?.isSome

/-- What a value holds under a key, or null: a container node holds members,
and a dictionary or mapping holds values under fixed keys. -/
def Value.memberUnder (v key : Value) : Except Failure Value :=
  match v, v.entries? with
  | .node n, _ => do
    let member ← n.member key
    return (member.map Value.node).getD .null
  | _, some entries => do
    key.requireHashable
    return (Entries.get? entries key).getD .null
  | _, none => .error (.value (.noMember v.classOf "get"))

end IndexAccess
