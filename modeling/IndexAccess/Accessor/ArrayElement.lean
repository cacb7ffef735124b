import IndexAccess.Accessor.Basic
import IndexAccess.Node.Members
import IndexAccess.Number.Power
import IndexAccess.Value.Conversion

/-!
# Reading array elements

The bundled accessor reads elements of JSON arrays.  An index is an integer, or
a text of ASCII digits for an integer of at most `maxIndex`.  An integer that
is no position of the array yields null.  Nothing can be written.
-/

namespace IndexAccess
namespace ArrayElement

attribute [local instance] corePower

/-- The greatest index that a text may stand for. -/
def maxIndex : Nat := 2 ^ (31 : Nat) - 1

def maxIndexDigits : Nat := (Number.integerText maxIndex).length

def isDigitText (t : Text) : Bool :=
  !t.isEmpty && t.chars.all Char.isDigit

/-- Whether a value is a text of ASCII digits. -/
def isNumericText : Value → Bool
  | .text t => isDigitText t
  | _ => false

/-- Whether a value can be an index: an integer, which a truth value is not, or
a numeric text. -/
def isIndex : Value → Bool
  | .integer _ => true
  | v => isNumericText v

/-- The digits of a text from the first that is no zero on, or one zero. -/
def significantDigits (t : Text) : List Char :=
  let digits := t.chars.dropWhile (· == '0')
  if digits.isEmpty then ['0'] else digits

def outOfRange (t : Text) : IndexFailure :=
  .inaccessible s!"Index string of {t.length} digits is out of integer range"

/-- The index that a text of digits stands for.  The length is judged first,
since an integer is not read from too many digits. -/
def indexOfDigits (t : Text) : Except Failure Int :=
  let digits := significantDigits t
  if maxIndexDigits < digits.length then .error (.index (outOfRange t))
  else do
    let index ← Value.integerOfText (String.ofList digits)
    if maxIndex < index then throw (.index (outOfRange t)) else return index

def integerIndex : Value → Except Failure Int
  | .integer i => .ok i
  | v =>
    match v with
    | .text t => if isDigitText t then indexOfDigits t else refuse v
    | _ => refuse v
where
  refuse (v : Value) : Except Failure Int := do
    let shown ← v.display
    throw (.index (.inaccessible
      s!"Index {shown} is neither an integer nor a numeric string"))

def items? : Value → Option (List Node)
  | .node n => n.items?
  | _ => none

def canRead (target index : Value) : Bool :=
  (items? target).isSome && isIndex index

def read (target index : Value) : Run TypedValue :=
  match items? target with
  | none =>
    .fail (.index (.inaccessible
      s!"Cannot index into non-array target of type '{target.classOf.name}'"))
  | some items => do
    let position ← Run.ofExcept (integerIndex index)
    Run.debug s!"Reading JSON array element {Number.integerText position} of {items.length}"
    return TypedValue.ofElement (Node.itemAt? items position)

def documentation : String := "Reads indexes from JSON arrays"

end ArrayElement

def Accessor.arrayElement (identity : Identity) : Accessor where
  identity := identity
  name := "JsonIndexAccessor"
  description := Accessor.describe (some ArrayElement.documentation)
  targets := [.arrayNode]
  canRead _ := ArrayElement.canRead
  read _ := ArrayElement.read
  canWrite _ _ _ := false
  write _ _ _ _ := .fail (.index (.unsupported "Write is not supported"))

end IndexAccess
