import IndexAccess.Run
import IndexAccess.Text.Blank
import IndexAccess.TypedValue

/-!
# Accessors

An accessor reads and writes indexed positions of a target.  The host first
asks whether the accessor can read or write, and only then lets it, with the
same target and index.  An accessor names the classes of the targets it
handles; one that names none is general.

The host gives itself to the accessor with everything that it asks.  An
accessor may look up variables of the host, see which accessors are registered
there, and read and write other indexes through it.
-/

namespace IndexAccess

abbrev Variables := List (String × Value)

/-- What an accessor tells about itself. -/
structure Profile where
  identity : Identity
  name : String
  description : String
  targets : List Class

/-- What a host offers to the accessors that it calls. -/
structure Host where
  bindings : Variables
  accessors : List Profile
  readIndex : (target index : Value) → Run TypedValue
  writeIndex : (target index value : Value) → Run Unit

structure Accessor extends Profile where
  canRead : Host → (target index : Value) → Bool
  read : Host → (target index : Value) → Run TypedValue
  canWrite : Host → (target index : Value) → Bool
  write : Host → (target index value : Value) → Run Unit

namespace Accessor

/-- The description of an accessor: the first line of its documentation. -/
def describe (documentation : Option String) : String :=
  let text := Text.trim (documentation.getD "")
  if text.isEmpty then "Index accessor"
  else String.ofList (text.toList.takeWhile (· != '\n'))

/-- How specific an accessor is for a class: 0 when it names the class itself,
1 when it names one of its superclasses, 2 when it is general. -/
def rank? (a : Accessor) (type : Class) : Option Nat :=
  if a.targets.isEmpty then some 2
  else if a.targets.contains type then some 0
  else if a.targets.any type.isUnder then some 1
  else none

def shownTargets (a : Accessor) : String :=
  if a.targets.isEmpty then "*"
  else ", ".intercalate (a.targets.map Class.name)

def summary (a : Accessor) : String :=
  s!"[{a.shownTargets}] {a.description}"

end Accessor
end IndexAccess
