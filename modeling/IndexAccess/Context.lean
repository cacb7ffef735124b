import IndexAccess.Accessor.ArrayElement
import IndexAccess.Registry

/-!
# Evaluation contexts

A context gives every index to the first proposed accessor that agrees to apply
it, and to no other.  When that accessor finds the index inaccessible, the
context refuses the index, with that failure as the cause, and passes the
reason on; any other failure goes through unchanged.  When no accessor agrees,
the context refuses the index without a reason.

A context is the host of its accessors.  What they read and write through it
goes through the same accessors again; calls that are nested too deep fail.
-/

namespace IndexAccess

structure Context where
  registry : Registry
  bindings : Variables

namespace Context

def empty : Context := ⟨.empty, []⟩

/-- A procedure on the registry of a context. -/
def onRegistry {α : Type} (p : Procedure Registry α) :
    Procedure Context α := fun c =>
  let (run, registry) := p c.registry
  (run, { c with registry })

def add (offered : Candidate) : Procedure Context Unit :=
  onRegistry (Registry.register offered)

/-- Removes an accessor and says whether it was there. -/
def remove (offered : Candidate) : Procedure Context Bool :=
  onRegistry (Registry.unregister offered)

def standard : Run Context :=
  (add (.accessor (.arrayElement .standard))).final empty

/-- The refusal of an index.  The index is shown in the message, so that an
index that cannot be shown makes another failure of it. -/
def refusal (target index : Value) (reason : Option String) :
    Except Failure Refusal := do
  let shownIndex ← index.display
  return { target := target.classOf, index, shownIndex, reason }

/-- A failure as a context passes it on. -/
def passOn (target index : Value) (refuse : RefusalKind)
    (failure : Failure) : Failure :=
  match failure with
  | .index (.inaccessible reason) =>
    match refusal target index (some reason) with
    | .ok r => .index (refuse r (some (.inaccessible reason)))
    | .error other => other
  | other => other

def refuseAll {α : Type} (target index : Value)
    (refuse : RefusalKind) : Run α :=
  .ofExcept do
    let r ← refusal target index none
    throw (.index (refuse r none))

/-- Reads an index through the first of the accessors that agrees. -/
def readWith (host : Host) (target index : Value) :
    List Accessor → Run TypedValue
  | [] => refuseAll target index .notReadable
  | a :: rest => do
    Run.note a.identity .canRead
    if a.canRead host target index then
      Run.debug s!"Reading index {index.shown} with {a.name}"
      Run.note a.identity .read
      (a.read host target index).recover fun failure =>
        .error (passOn target index .notReadable failure)
    else readWith host target index rest

/-- Writes an index through the first of the accessors that agrees. -/
def writeWith (host : Host) (target index value : Value) :
    List Accessor → Run Unit
  | [] => refuseAll target index .notWritable
  | a :: rest => do
    Run.note a.identity .canWrite
    if a.canWrite host target index then
      Run.debug s!"Writing index {index.shown} with {a.name}"
      Run.note a.identity (.write target index value)
      (a.write host target index value).recover fun failure =>
        .error (passOn target index .notWritable failure)
    else writeWith host target index value rest

/-- How deep the calls of accessors through their host may be nested. -/
def nestingLimit : Nat := 1000

/-- A context as the host of calls that may be nested up to a depth. -/
def hostAt (c : Context) : (depth : Nat) → Host
  | 0 => {
    bindings := c.bindings
    accessors := c.registry.accessors.map (·.toProfile)
    readIndex _ _ := .fail (.value .recursionTooDeep)
    writeIndex _ _ _ := .fail (.value .recursionTooDeep) }
  | depth + 1 => {
    bindings := c.bindings
    accessors := c.registry.accessors.map (·.toProfile)
    readIndex target index :=
      readWith (c.hostAt depth) target index
        (c.registry.candidates target.classOf)
    writeIndex target index value :=
      writeWith (c.hostAt depth) target index value
        (c.registry.candidates target.classOf) }

def host (c : Context) : Host :=
  c.hostAt nestingLimit

@[simp] theorem hostAt_bindings (c : Context) (depth : Nat) :
    (c.hostAt depth).bindings = c.bindings := by
  cases depth <;> rfl

@[simp] theorem host_bindings (c : Context) : c.host.bindings = c.bindings :=
  c.hostAt_bindings nestingLimit

def readIndex (c : Context) (target index : Value) : Run TypedValue :=
  readWith c.host target index (c.registry.candidates target.classOf)

def writeIndex (c : Context) (target index value : Value) : Run Unit :=
  writeWith c.host target index value (c.registry.candidates target.classOf)

end Context
end IndexAccess
