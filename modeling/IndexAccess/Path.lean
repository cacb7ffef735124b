import IndexAccess.Context

/-!
# Index paths

A path of indexes is applied to a root one index after the other, each to the
value that the one before it has led to.  Nothing can be applied to null.
-/

namespace IndexAccess
namespace Path

def stopAtNull {α : Type} (step : Nat) (index : Value) : Run α :=
  .ofExcept do
    let shown ← index.display
    throw (.index (.valueIsNull step shown))

/-- Applies the indexes from a step on to the current value. -/
def follow (c : Context) : (step : Nat) →
    (current : TypedValue) → List Value → Run TypedValue
  | _, current, [] => pure current
  | step, current, index :: rest =>
    if current.isNull then stopAtNull step index
    else do
      let next ← c.readIndex current.value index
      Run.debug s!"Step {step}: [{index.shown}] -> {next.kind}"
      follow c (step + 1) next rest

def apply (c : Context) (root : Value) (indexes : List Value) :
    Run TypedValue := do
  let node ← Run.ofExcept (Node.ofValue root)
  follow c 1 (.node (.node node)) indexes

end Path
end IndexAccess
