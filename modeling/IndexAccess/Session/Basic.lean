import IndexAccess.Accessor.Scripted
import IndexAccess.Feature.Builtin
import IndexAccess.Node.Lookup
import IndexAccess.Session.Sharing

/-!
# Sessions

A session holds named contexts, the accessors that are declared for them, and
variables.  Its steps build contexts, register and unregister accessors, read
and write indexes, and change containers, which shows wherever a container is
held.  Reading a document takes a standard context where there is none of the
name.  A step that fails leaves the session as it was.
-/

namespace IndexAccess

/-- Something offered to a registry: a declared accessor by its name, or a
value. -/
inductive Offer where
  | accessor (name : String)
  | value (e : Expression)

/-- How a context is made. -/
inductive ContextRecipe where
  | standard
  | withVariables (bindings : List (String × Expression))
  | withRegistry (offers : List Offer)

inductive Step where
  | make (context : String) (recipe : ContextRecipe)
  | register (context : String) (offer : Offer)
  | unregister (context : String) (offer : Offer)
  | state (context : String)
  | candidates (context : String) (target : Expression)
  | read (context : String) (target index : Expression)
    (saveAs : Option String)
  | write (context : String) (target index value : Expression)
  | readDocument (context : String) (document : Text)
    (indexes : List Expression)
  | assign (name : String) (value : Expression)
  | add (target value : Expression)
  | set (target : Expression) (name : String) (value : Expression)
  | get (target key : Expression) (saveAs : Option String)
  | inspect (target : Expression)
  | compare (target other : Expression)

inductive Answer where
  | accessors (identities : List Identity)
  | removal (removed : Bool) (identities : List Identity)
  | state (identities : List Identity) (size : Nat)
    (listing : List (String × String))
      (feature : Result)
  | typed (value : TypedValue)
  | done
  | result (result : Result)
  | value (value : Value)
  | inspection (node : Node) (shown : String)
  | verdict (holds : Bool)

structure Session where
  sources : List (String × AccessorSource)
  contexts : List (String × Context)
  bindings : Variables
  nextCell : Cell

/-- A context with the container of a cell replaced in its variables. -/
def Context.replace (cell : Cell) (container : Node) (c : Context) : Context :=
  { c with bindings := c.bindings.replace cell container }

/-- Steps change the session and run; a failing step changes nothing. -/
abbrev SessionM := StateT Session Run

namespace Session

def fail {α : Type} (failure : Failure) : SessionM α :=
  StateT.lift (Run.fail failure)

def eval (e : Expression) : SessionM Value := do
  let s ← get
  StateT.lift (Run.ofExcept (e.eval s.bindings))

def evalNode (e : Expression) : SessionM Node := do
  let value ← eval e
  StateT.lift (Run.ofExcept (Node.ofValue value))

/-- A value that variables may hold: its containers are sharable. -/
def shareValue (value : Value) : SessionM Value := do
  let s ← get
  let (shared, nextCell) := value.share.run s.nextCell
  set { s with nextCell }
  return shared

/-- Stores a value in a variable, if there is one to store it in. -/
def save (name : Option String) (value : Value) : SessionM Unit :=
  match name with
  | none => pure ()
  | some name => do
    let shared ← shareValue value
    modify fun s => { s with bindings := Entries.put name shared s.bindings }

/-- The accessor that is declared under a name, if there is one.  Its
expressions have the variables of the session in scope. -/
def accessor? (s : Session) (name : String) : Option Accessor :=
  (Entries.get? s.sources name).map fun source =>
    source.accessor (.declared name) s.bindings

/-- An accessor with the variables of the session in scope. -/
def refreshAccessor (s : Session) (a : Accessor) : Accessor :=
  match a.identity with
  | .declared name => (s.accessor? name).getD a
  | _ => a

/-- A context whose accessors have the variables of the session in scope. -/
def refresh (s : Session) (c : Context) : Context :=
  { c with registry := ⟨c.registry.accessors.map s.refreshAccessor⟩ }

def context? (s : Session) (name : String) : Option Context :=
  (Entries.get? s.contexts name).map s.refresh

/-- The context of a name, for the sake of one of its members.  A name without
a context stands for nothing, which has no members. -/
def context (name member : String) : SessionM Context := do
  match (← get).context? name with
  | some c => return c
  | none => fail (.value (.noMember .none member))

def setContext (name : String) (c : Context) : SessionM Unit :=
  modify fun s => { s with contexts := Entries.put name c s.contexts }

def candidate : Offer → SessionM Candidate
  | .accessor name => do
    let s ← get
    match s.accessor? name with
    | some a => return .accessor a
    | none => fail (.value (.missingKey (Text.quoted name)))
  | .value e => do return .value (← eval e)

def identities (c : Context) : List Identity :=
  c.registry.accessors.map (·.identity)

/-- A session with the container of a cell replaced at every place that holds
it. -/
def replace (cell : Cell) (container : Node) (s : Session) : Session :=
  { s with
    bindings := s.bindings.replace cell container
    contexts := s.contexts.map fun (name, c) =>
      (name, c.replace cell container) }

/-- Puts a changed container at every place that holds it. -/
def update (container : Node) : SessionM Unit := do
  match container.cell? with
  | none => pure ()
  | some cell => do
    let shared ← shareValue (.node container)
    match shared with
    | .node n => modify (replace cell n)
    | _ => pure ()

/-- The variables of a new context. -/
def evalVariables (bindings : List (String × Expression)) :
    SessionM Variables := do
  let pairs ← bindings.mapM fun (name, e) => do
    let value ← eval e
    let shared ← shareValue value
    return (name, shared)
  return Entries.ofList pairs

def make : ContextRecipe → SessionM Context
  | .standard => StateT.lift Context.standard
  | .withVariables bindings => do
    return { registry := .empty, bindings := ← evalVariables bindings }
  | .withRegistry offers => do
    let candidates ← offers.mapM candidate
    let registry ← StateT.lift (Registry.ofCandidates candidates)
    return { registry, bindings := [] }

/-- Adds an item to an array, or to a set, which takes fixed members only and
whose members are not kept. -/
def add (target value : Expression) : SessionM Answer := do
  match ← eval target with
  | .node (.array style cell items) => do
    let item ← evalNode value
    let container := Node.add item (.array style cell items)
    update container
    return .value (.node container)
  | .foreign .set => do
    let item ← evalNode value
    StateT.lift (Run.ofExcept (Value.node item).requireHashable)
    return .value (.foreign .set)
  | other => fail (.value (.noMember other.classOf "add"))

def setField (target : Expression) (name : String) (value : Expression) :
    SessionM Answer := do
  match ← eval target with
  | .node (.object cell fields) => do
    let item ← evalNode value
    let container := Node.set name item (.object cell fields)
    update container
    return .value (.node container)
  | other => fail (.value (.noMember other.classOf "set"))

/-- Looks up what a container holds under a key. -/
def getMember (target key : Expression) (saveAs : Option String) :
    SessionM Answer := do
  let container ← eval target
  if container.holdsMembers then do
    let keyValue ← eval key
    let member ← StateT.lift (Run.ofExcept (container.memberUnder keyValue))
    save saveAs member
    return .value member
  else fail (.value (.noMember container.classOf "get"))

def inspect (target : Expression) : SessionM Answer := do
  match ← eval target with
  | .node n =>
    if n.isContainer then do
      let shown ← StateT.lift (Run.ofExcept n.display)
      return .inspection n shown
    else fail (.value (.noMember n.classOf "size"))
  | other => fail (.value (.noMember other.classOf "size"))

def register (name : String) (offer : Offer) : SessionM Answer := do
  let c ← context name "add_index_accessor"
  let offered ← candidate offer
  let (run, extended) := Context.add offered c
  StateT.lift run
  setContext name extended
  return .accessors (identities extended)

def unregister (name : String) (offer : Offer) : SessionM Answer := do
  let c ← context name "remove_index_accessor"
  let offered ← candidate offer
  let (run, rest) := Context.remove offered c
  let removed ← StateT.lift run
  setContext name rest
  return .removal removed (identities rest)

def perform : Step → SessionM Answer
  | .make name recipe => do
    let c ← make recipe
    setContext name c
    return .accessors (identities c)
  | .register name offer => register name offer
  | .unregister name offer => unregister name offer
  | .state name => do
    let c ← context name "index_accessors"
    let feature ← StateT.lift (Feature.listAccessors (pure c))
    return .state (identities c) c.registry.size c.registry.listing feature
  | .candidates name target => do
    let c ← context name "registry"
    let value ← eval target
    return .accessors ((c.registry.candidates value.classOf).map (·.identity))
  | .read name target index saveAs => do
    let c ← context name "read_index"
    let targetValue ← eval target
    let indexValue ← eval index
    let result ← StateT.lift (c.readIndex targetValue indexValue)
    save saveAs result.value
    return .typed result
  | .write name target index value => do
    let c ← context name "write_index"
    let targetValue ← eval target
    let indexValue ← eval index
    let newValue ← eval value
    StateT.lift (c.writeIndex targetValue indexValue newValue)
    return .done
  | .readDocument name document indexes => do
    let c? := (← get).context? name
    let values ← indexes.mapM eval
    let c := (c?.map pure).getD Context.standard
    let result ← StateT.lift (Feature.readDocument c document values)
    return .result result
  | .assign name value => do
    let v ← eval value
    save (some name) v
    return .value v
  | .add target value => add target value
  | .set target name value => setField target name value
  | .get target key saveAs => getMember target key saveAs
  | .inspect target => inspect target
  | .compare target other => do
    let a ← eval target
    let b ← eval other
    return .verdict (a.same b)

/-- What a step comes to: its answer, and the calls of scripted accessors. -/
structure Report where
  answer : Except Failure Answer
  calls : List (Identity × Request)

def isScripted (s : Session) : Identity → Bool
  | .declared name =>
    ((Entries.get? s.sources name).map AccessorSource.isScripted).getD false
  | _ => false

/-- The session after a step, and what the step comes to. -/
def step (s : Session) (st : Step) : Session × Report :=
  let run := (perform st).run s
  let calls := run.calls.filter fun call => s.isScripted call.1
  match run.outcome with
  | .ok (answer, next) => (next, ⟨.ok answer, calls⟩)
  | .error failure => (s, ⟨.error failure, calls⟩)

def runSteps : Session → List Step → List Report
  | _, [] => []
  | s, st :: rest =>
    let (next, report) := s.step st
    report :: runSteps next rest

/-- A session with the declared accessors, and no contexts and variables. -/
def start (sources : List (String × AccessorSource)) : Session where
  sources := Entries.ofList sources
  contexts := []
  bindings := []
  nextCell := 0

end Session
end IndexAccess
