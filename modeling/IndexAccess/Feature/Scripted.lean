import IndexAccess.Accessor.Scripted
import IndexAccess.Feature.Builtin

/-!
# Scripted features

A scripted handler always answers with one result, or runs a built-in handler
in a context that holds accessors of its own.  The data of a result are
evaluated anew whenever the handler is called, and fail the call if they cannot
be.
-/

namespace IndexAccess

inductive BuiltinHandler where
  | version
  | read
  | listAccessors
deriving DecidableEq, Repr

def BuiltinHandler.handler (context : Run Context) : BuiltinHandler → Handler
  | version => Feature.handleVersion
  | read => Feature.handleRead context
  | listAccessors => Feature.handleListAccessors context

inductive HandlerScript where
  | fails (error : String)
  | answers (data : Expression)
  | withAccessors (base : BuiltinHandler) (sources : List AccessorSource)

/-- The accessors of sources, each told apart by its place, without
variables. -/
def Registry.ofSources (sources : List AccessorSource) : Registry :=
  ⟨sources.mapIdx fun position source => source.accessor (.placed position) []⟩

def HandlerScript.handler : HandlerScript → Handler
  | fails error => fun _ => pure (.fail error)
  | answers data => fun _ => do
    let value ← Run.ofExcept (data.eval [])
    return .ok value
  | withAccessors base sources =>
    base.handler (pure { registry := .ofSources sources, bindings := [] })

end IndexAccess
