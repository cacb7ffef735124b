import IndexAccess.Feature.Basic

/-!
# Feature sessions

A feature session registers and calls features one step after the other.
Dictionaries of features live at places, and the registry is kept in one of
them.  A listing hands out a copy of it, which lives at a place of its own from
then on: its receiver may keep it, and change it in any way at any later step.
What a feature is called with, and a result that is passed on, may itself have
failed; the step then fails the same way.
-/

namespace IndexAccess

abbrev FeatureDictionary := List (String × Feature)

/-- Dictionaries that were handed out are numbered in the order in which they
were. -/
inductive FeatureStep where
  | register (feature : Feature)
  | get (name : String)
  | list
  | clearListing
  | changeListing (number : Nat)
    (change : FeatureDictionary → FeatureDictionary)
  | call (name : String) (inputs : Except Failure (Option Inputs))
  | callForData (name : String) (inputs : Except Failure (Option Inputs))
  | require (name : String) (result : Except Failure Result)

inductive FeatureAnswer where
  | registered (name : String) (features : List Feature)
  | feature (feature : Option Feature)
  | features (features : List Feature)
  | result (result : Result)
  | data (data : Value)

/-- The result of the feature of a name. -/
def FeatureRegistry.call (r : FeatureRegistry) (name : String)
    (inputs : Except Failure (Option Inputs)) : Run Result := do
  let feature ← r.require name
  let inputs ← Run.ofExcept inputs
  feature.handler inputs

structure FeatureSession where
  dictionaries : List FeatureDictionary
  registryPlace : Nat
  handedOut : List Nat

namespace FeatureSession

def start (r : FeatureRegistry) : FeatureSession where
  dictionaries := [r.entries]
  registryPlace := 0
  handedOut := []

/-- The dictionary that lives at a place; nothing but an empty one
elsewhere. -/
def dictionary (s : FeatureSession) (place : Nat) : FeatureDictionary :=
  s.dictionaries[place]?.getD []

def registry (s : FeatureSession) : FeatureRegistry :=
  ⟨s.dictionary s.registryPlace⟩

def changeAt (s : FeatureSession) (place : Nat)
    (change : FeatureDictionary → FeatureDictionary) : FeatureSession :=
  { s with dictionaries := s.dictionaries.modify place change }

def register (s : FeatureSession) (feature : Feature) : FeatureSession :=
  s.changeAt s.registryPlace (Entries.put feature.name feature)

/-- Hands out a copy of the registry, and tells where it lives. -/
def handOut (s : FeatureSession) : FeatureSession × Nat :=
  let place := s.dictionaries.length
  ({ s with
      dictionaries := s.dictionaries ++ [s.dictionary s.registryPlace]
      handedOut := s.handedOut ++ [place] }, place)

/-- What a dictionary that is handed out now holds. -/
def listing (s : FeatureSession) : FeatureDictionary :=
  s.handOut.1.dictionary s.handOut.2

/-- Changes a dictionary that was handed out; without such a number nothing is
there to be changed. -/
def changeHandedOut (s : FeatureSession) (number : Nat)
    (change : FeatureDictionary → FeatureDictionary) : FeatureSession :=
  match s.handedOut[number]? with
  | some place => s.changeAt place change
  | none => s

/-- Hands out a dictionary, and tells its features. -/
def list (s : FeatureSession) : FeatureSession × List Feature :=
  (s.handOut.1, s.listing.map (·.2))

/-- The session after a step, and the run of the step.  A registration and a
change of a dictionary are answered with what a listing shows afterwards. -/
def step (s : FeatureSession) :
    FeatureStep → FeatureSession × Run FeatureAnswer
  | .register feature =>
    let (next, features) := (s.register feature).list
    (next, pure (.registered feature.name features))
  | .get name => (s, pure (.feature (s.registry.get? name)))
  | .list =>
    let (next, features) := s.list
    (next, pure (.features features))
  | .clearListing =>
    let number := s.handedOut.length
    let (next, features) :=
      (s.handOut.1.changeHandedOut number fun _ => []).list
    (next, pure (.features features))
  | .changeListing number change =>
    let (next, features) := (s.changeHandedOut number change).list
    (next, pure (.features features))
  | .call name inputs => (s, do return .result (← s.registry.call name inputs))
  | .callForData name inputs => (s, do
    let result ← s.registry.call name inputs
    return .data (← result.require name))
  | .require name result => (s, do
    let result ← Run.ofExcept result
    return .data (← result.require name))

/-- The session after steps carried out one after the other. -/
def after (s : FeatureSession) (steps : List FeatureStep) : FeatureSession :=
  steps.foldl (fun s st => (s.step st).1) s

/-- The runs of steps carried out one after the other. -/
def runSteps : FeatureSession → List FeatureStep → List (Run FeatureAnswer)
  | _, [] => []
  | s, st :: rest => (s.step st).2 :: runSteps (s.step st).1 rest

end FeatureSession

/-- The runs of steps of a session that starts with a registry. -/
def FeatureRegistry.runSteps (r : FeatureRegistry) (steps : List FeatureStep) :
    List (Run FeatureAnswer) :=
  (FeatureSession.start r).runSteps steps

end IndexAccess
