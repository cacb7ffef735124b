import IndexAccess.Feature.Basic
import IndexAccess.Json.Reader
import IndexAccess.Path

/-!
# The features of the program

Three features are built in: the version, reading indexes from a document, and
the listing of accessors.  Reading answers with a failed result when the
document is malformed or index access fails.
-/

namespace IndexAccess

def version : String := "0.3.0"

namespace Feature

/-- A dictionary with texts as keys. -/
def record (entries : List (String × Value)) : Value :=
  .dict (entries.map fun (name, value) => (.text name, value))

/-- The result of following a path: failures of index access are results. -/
def settle (run : Run TypedValue) : Run Result :=
  match run.outcome with
  | .ok t =>
    ⟨run.events, .ok (.ok (record [("kind", .text t.kind),
      ("value", t.native)]))⟩
  | .error (.index failure) => ⟨run.events, .ok (.fail failure.message)⟩
  | .error failure => ⟨run.events, .error failure⟩

def readDocument (context : Run Context) (document : Text)
    (indexes : List Value) :
    Run Result :=
  match Json.readDocument document with
  | .error (.malformed kind rest) =>
    pure (.fail
      s!"Invalid JSON document: {Json.faultMessage document kind rest}")
  | .error (.tooManyDigits count) => .fail (.value (.tooManyDigits count))
  | .ok root => do
    let c ← context
    settle (Path.apply c root indexes)

def handleVersion : Handler := fun _ =>
  pure (.ok (record [("version", .text version)]))

def handleRead (context : Run Context) : Handler
  | none => .fail (.value .missingInputs)
  | some inputs => readDocument context inputs.document inputs.indexes

def listAccessors (context : Run Context) : Run Result := do
  let c ← context
  let entries := c.registry.listing.map fun (name, summary) =>
    (name, Value.text summary)
  return .ok (record [("accessors", record entries)])

def handleListAccessors (context : Run Context) : Handler := fun _ =>
  listAccessors context

end Feature

def FeatureRegistry.builtin : FeatureRegistry :=
  [ ⟨"version", "Show the jsonindex version", Feature.handleVersion⟩,
    ⟨"read", "Read indexes from a JSON document",
      Feature.handleRead Context.standard⟩,
    ⟨"list-accessors", "List registered index accessors",
      Feature.handleListAccessors Context.standard⟩ ].foldl .register .empty

end IndexAccess
