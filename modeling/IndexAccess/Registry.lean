import IndexAccess.Accessor.Basic
import IndexAccess.Procedure

/-!
# The accessor registry

A registry keeps accessors in the order of their registration, each at most
once.  For a target it proposes the accessors that name the target's own class,
then those that name a superclass, then the general ones, in registration order
within each group.
-/

namespace IndexAccess

structure Registry where
  accessors : List Accessor

/-- What a caller offers to a registry: an accessor, or some other value. -/
inductive Candidate where
  | accessor (a : Accessor)
  | value (v : Value)

namespace Registry

def empty : Registry := ⟨[]⟩

def holds (r : Registry) (identity : Identity) : Bool :=
  r.accessors.any (·.identity == identity)

/-- Adds an accessor at the end.  What is offered is judged before anything
changes. -/
def register : Candidate → Procedure Registry Unit
  | .value v => .raise (.value (.notAnAccessor v.classOf))
  | .accessor a => do
    let r ← .get
    if r.holds a.identity then .raise (.value (.duplicateAccessor a.name))
    else do
      .modify fun r => ⟨r.accessors ++ [a]⟩
      .perform (.debug s!"Registered index accessor {a.name}")

/-- Removes an accessor and says whether it was there. -/
def unregister : Candidate → Procedure Registry Bool
  | .value _ => pure false
  | .accessor a => do
    let r ← .get
    if r.holds a.identity then do
      .modify fun r => ⟨r.accessors.eraseP (·.identity == a.identity)⟩
      .perform (.debug s!"Unregistered index accessor {a.name}")
      return true
    else return false

/-- The registry that results from registering candidates one after the
other. -/
def ofCandidates (candidates : List Candidate) : Run Registry :=
  (candidates.forM register).final empty

def ranked (r : Registry) (type : Class) (rank : Nat) : List Accessor :=
  r.accessors.filter fun a => a.rank? type == some rank

/-- The accessors to try for a class, most specific first. -/
def candidates (r : Registry) (type : Class) : List Accessor :=
  r.ranked type 0 ++ r.ranked type 1 ++ r.ranked type 2

/-- The accessors by name with their summaries.  Accessors of one name share an
entry, at the place of the first and with the text of the last. -/
def listing (r : Registry) : List (String × String) :=
  Entries.ofList (r.accessors.map fun a => (a.name, a.summary))

def size (r : Registry) : Nat :=
  r.accessors.length

end Registry
end IndexAccess
