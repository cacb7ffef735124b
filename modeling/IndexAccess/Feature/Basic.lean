import IndexAccess.Run

/-!
# Features

A feature has a name, a description and a handler, which answers with a result
instead of failing where it can.  The registry lists every feature at the place
where its name was first registered, as it was registered last.
-/

namespace IndexAccess

structure Result where
  success : Bool
  data : Value
  error : Option String

namespace Result

def ok (data : Value) : Result := ⟨true, data, none⟩

def fail (error : String) : Result := ⟨false, .null, some error⟩

/-- Why an operation has failed; an error without a text is unknown. -/
def reason (r : Result) : String :=
  match r.error with
  | none => "Unknown error"
  | some error => if error.isEmpty then "Unknown error" else error

end Result

/-- What a handler works on: a document and the indexes to apply to it. -/
structure Inputs where
  document : Text
  indexes : List Value

/-- A handler may be called without inputs. -/
abbrev Handler := Option Inputs → Run Result

structure Feature where
  name : String
  description : String
  handler : Handler

structure FeatureRegistry where
  entries : List (String × Feature)

namespace FeatureRegistry

def empty : FeatureRegistry := ⟨[]⟩

def register (r : FeatureRegistry) (feature : Feature) : FeatureRegistry :=
  ⟨Entries.put feature.name feature r.entries⟩

def get? (r : FeatureRegistry) (name : String) : Option Feature :=
  Entries.get? r.entries name

def without (r : FeatureRegistry) (names : List String) : FeatureRegistry :=
  ⟨r.entries.filter fun entry => !names.contains entry.1⟩

def features (r : FeatureRegistry) : List Feature :=
  r.entries.map (·.2)

/-- The feature of a name; without it the program ends. -/
def require (r : FeatureRegistry) (name : String) : Run Feature :=
  match r.get? name with
  | some feature => pure feature
  | none => do
    Run.log Log.Level.error s!"Unknown feature: {name}"
    Run.fail (.exit 1)

end FeatureRegistry

/-- The data of a result; without success the program ends. -/
def Result.require (name : String) (r : Result) : Run Value :=
  if r.success then pure r.data
  else do
    Run.log Log.Level.error s!"{name} failed: {r.reason}"
    Run.fail (.exit 1)

end IndexAccess
