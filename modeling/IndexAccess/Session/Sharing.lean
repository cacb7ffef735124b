import IndexAccess.Accessor.Basic

/-!
# Shared containers

A container that is reachable from several places is one container: it carries
one cell, and a change to it shows at every place.  Giving cells to containers
without one makes them sharable; replacing the container of a cell carries a
change to every place that holds it.
-/

namespace IndexAccess

/-- The cell of a container, or the next unused one if it has none. -/
def ensureCell : Option Cell → StateM Cell Cell
  | some cell => pure cell
  | none => modifyGet fun next => (next, next + 1)

namespace Node

mutual

/-- A node whose containers all carry cells. -/
def share : Node → StateM Cell Node
  | array style cell items => do
    let cell ← ensureCell cell
    let items ← shareItems items
    return array style (some cell) items
  | object cell fields => do
    let cell ← ensureCell cell
    let fields ← shareFields fields
    return object (some cell) fields
  | leaf => pure leaf

def shareItems : List Node → StateM Cell (List Node)
  | [] => pure []
  | item :: rest => do
    let item ← share item
    let rest ← shareItems rest
    return item :: rest

def shareFields : List (Text × Node) → StateM Cell (List (Text × Node))
  | [] => pure []
  | (name, item) :: rest => do
    let item ← share item
    let rest ← shareFields rest
    return (name, item) :: rest

end

mutual

/-- A node with the container of a cell replaced wherever it occurs. -/
def replace (cell : Cell) (container : Node) : Node → Node
  | array style other items =>
    if other = some cell then container
    else array style other (replaceItems cell container items)
  | object other fields =>
    if other = some cell then container
    else object other (replaceFields cell container fields)
  | leaf => leaf

def replaceItems (cell : Cell) (container : Node) : List Node → List Node
  | [] => []
  | item :: rest =>
    replace cell container item :: replaceItems cell container rest

def replaceFields (cell : Cell) (container : Node) :
    List (Text × Node) → List (Text × Node)
  | [] => []
  | (name, item) :: rest =>
    (name, replace cell container item) :: replaceFields cell container rest

end

end Node

namespace Value

mutual

/-- A value whose container nodes all carry cells. -/
def share : Value → StateM Cell Value
  | list items => do return list (← shareItems items)
  | tuple items => do return tuple (← shareItems items)
  | dict entries => do return dict (← shareEntries entries)
  | mapping entries => do return mapping (← shareEntries entries)
  | node n => do return node (← n.share)
  | v => pure v

def shareItems : List Value → StateM Cell (List Value)
  | [] => pure []
  | item :: rest => do
    let item ← share item
    let rest ← shareItems rest
    return item :: rest

def shareEntries : List (Value × Value) → StateM Cell (List (Value × Value))
  | [] => pure []
  | (key, item) :: rest => do
    let key ← share key
    let item ← share item
    let rest ← shareEntries rest
    return (key, item) :: rest

end

mutual

/-- A value with the container of a cell replaced wherever it occurs. -/
def replace (cell : Cell) (container : Node) : Value → Value
  | list items => list (replaceItems cell container items)
  | tuple items => tuple (replaceItems cell container items)
  | dict entries => dict (replaceEntries cell container entries)
  | mapping entries => mapping (replaceEntries cell container entries)
  | node n => node (Node.replace cell container n)
  | v => v

def replaceItems (cell : Cell) (container : Node) : List Value → List Value
  | [] => []
  | item :: rest =>
    replace cell container item :: replaceItems cell container rest

def replaceEntries (cell : Cell) (container : Node) :
    List (Value × Value) → List (Value × Value)
  | [] => []
  | (key, item) :: rest =>
    (replace cell container key, replace cell container item) ::
      replaceEntries cell container rest

end

end Value

/-- Variables with the container of a cell replaced. -/
def Variables.replace (cell : Cell) (container : Node)
    (bindings : Variables) : Variables :=
  bindings.map fun (name, value) => (name, value.replace cell container)

end IndexAccess
