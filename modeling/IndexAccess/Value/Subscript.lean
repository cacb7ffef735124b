import IndexAccess.Value.Conversion

/-!
# Entries of values by name

Dictionaries and mappings give the value under a text key; other values give
nothing, each class with its own failure.
-/

namespace IndexAccess
namespace Value

/-- The value under a text key of a dictionary or mapping. -/
def entry? (v : Value) (name : String) : Option Value :=
  v.entries?.bind fun entries =>
    (entries.find? fun
      | (.text key, _) => key == Text.ofString name
      | _ => false).map (·.2)

/-- The failure of asking a value for an entry by name. -/
def subscriptFailure (v : Value) (name : String) : ValueFailure :=
  match v with
  | dict _ | mapping _ => .missingKey (Text.quoted name)
  | text _ => .textPositionNotInteger
  | list _ | tuple _ | foreign .byteArray | foreign .range =>
    .positionNotInteger v.classOf.name .text
  | bytes _ => .positionNotInteger "byte" .text
  | _ => .noSubscript v.classOf

def subscript (v : Value) (name : String) : Except Failure Value :=
  match v.entry? name with
  | some value => .ok value
  | none => .error (.value (v.subscriptFailure name))

end Value
end IndexAccess
