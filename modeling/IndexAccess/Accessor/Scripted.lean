import IndexAccess.Accessor.ArrayElement
import IndexAccess.Expression

/-!
# Scripted accessors

A scripted accessor is described by data: when it agrees to read or write, and
what it does then.  It serves to set up contexts in which several accessors
compete.

What it reads may be given by an expression.  The expression is evaluated at
every read, with the variables in scope at that time, so that each read yields
containers of its own and fails where the expression fails.  An accessor may
also read the index from another target in place of its own, and asks its host
to do so.
-/

namespace IndexAccess

inductive Willingness where
  | always
  | never
  | numericTexts
  | texts
deriving DecidableEq, Repr

namespace Willingness

def holds : Willingness → (index : Value) → Bool
  | always, _ => true
  | never, _ => false
  | numericTexts, index => ArrayElement.isNumericText index
  | texts, .text _ => true
  | texts, _ => false

end Willingness

inductive ScriptedFailure where
  | inaccessible (message : String)
  | unsupported (message : String)
  | general (message : String)
  | rejected (message : String)
deriving DecidableEq, Repr

def ScriptedFailure.failure : ScriptedFailure → Failure
  | inaccessible message => .index (.inaccessible message)
  | unsupported message => .index (.unsupported message)
  | general message => .index (.general message)
  | rejected message => .value (.rejected message)

inductive ScriptedRead where
  | fails (how : ScriptedFailure)
  | null
  | stored (name : String)
  | index
  | arrayElement
  | forwarded (other : Expression)
  | node (content : Expression)
  | scalar (content : Expression)

inductive ScriptedWrite where
  | fails (how : ScriptedFailure)
  | accepts
deriving DecidableEq, Repr

structure Script where
  name : String
  documentation : Option String
  targets : List Class
  canRead : Willingness
  canWrite : Willingness
  read : ScriptedRead
  write : ScriptedWrite

namespace ScriptedRead

/-- Reads with the variables in scope for expressions. -/
def run (scope : Variables) (host : Host) (target index : Value) :
    ScriptedRead → Run TypedValue
  | fails how => .fail how.failure
  | null => pure .null
  | stored name =>
    pure (.scalar ((Entries.get? host.bindings name).getD .null))
  | .index => pure (.scalar index)
  | arrayElement => ArrayElement.read target index
  | forwarded other => do
    let value ← Run.ofExcept (other.eval scope)
    host.readIndex value index
  | node content => do
    let value ← Run.ofExcept (content.eval scope)
    let n ← Run.ofExcept (Node.ofValue value)
    return .node (.node n)
  | scalar content => do
    let value ← Run.ofExcept (content.eval scope)
    return .scalar value

end ScriptedRead

namespace ScriptedWrite

def run : ScriptedWrite → Run Unit
  | fails how => .fail how.failure
  | accepts => pure ()

end ScriptedWrite

def Script.accessor (s : Script) (identity : Identity) (scope : Variables) :
    Accessor where
  identity := identity
  name := s.name
  description := Accessor.describe s.documentation
  targets := s.targets
  canRead _ _ index := s.canRead.holds index
  read host target index := s.read.run scope host target index
  canWrite _ _ index := s.canWrite.holds index
  write _ _ _ _ := s.write.run

inductive AccessorSource where
  | bundled
  | scripted (script : Script)

namespace AccessorSource

/-- The accessor of a source, with the variables in scope for its
expressions. -/
def accessor (identity : Identity) (scope : Variables) :
    AccessorSource → Accessor
  | bundled => .arrayElement identity
  | scripted script => script.accessor identity scope

def isScripted : AccessorSource → Bool
  | bundled => false
  | scripted _ => true

end AccessorSource
end IndexAccess
