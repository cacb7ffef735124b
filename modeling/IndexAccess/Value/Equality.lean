import IndexAccess.Value.Basic

/-!
# Equality of nodes and values

Two nodes are the same when they have the same content: leaves of one kind with
equal scalars, arrays with the same items in order whatever their style,
objects with the same names bound to the same nodes in any order.  Numbers of
different kinds are never the same node.

Two values are the same under the equality of expressions, in which truth
values, integers and numbers are compared as numbers, exactly.
-/

namespace IndexAccess
namespace Node

mutual

def same : Node → Node → Bool
  | text a, text b => a == b
  | integer a, integer b => a == b
  | number a, number b => a.sameNumber b
  | boolean a, boolean b => a == b
  | null, null => true
  | array _ _ as, array _ _ bs => sameItems as bs
  | object _ as, object _ bs => as.length == bs.length && sameFields as bs
  | _, _ => false

def sameItems : List Node → List Node → Bool
  | [], [] => true
  | a :: as, b :: bs => same a b && sameItems as bs
  | _, _ => false

/-- Whether every field occurs among `others`. -/
def sameFields : List (Text × Node) → List (Text × Node) → Bool
  | [], _ => true
  | (name, a) :: rest, others =>
    (match Entries.get? others name with
      | some b => same a b
      | none => false) && sameFields rest others

end

instance : BEq Node := ⟨same⟩

end Node

/-- The numeric value of a value that is compared as a number. -/
inductive Numeric where
  | integer (value : Int)
  | number (value : Binary64)

namespace Numeric

/-- Exact equality of numbers of either kind. -/
def same : Numeric → Numeric → Bool
  | integer a, integer b => a == b
  | integer a, number b => b.isInteger a
  | number a, integer b => a.isInteger b
  | number a, number b => a.sameNumber b

end Numeric

namespace Value

/-- Truth values count as zero and one, and the empty complex number as
zero. -/
def numeric? : Value → Option Numeric
  | boolean b => some (.integer (if b then 1 else 0))
  | integer i => some (.integer i)
  | number x => some (.number x)
  | foreign .complex => some (.integer 0)
  | _ => none

/-- Equality of values without members: numbers as numbers, the two kinds of
byte strings and of sets among themselves.  A plain thing equals nothing
else. -/
def samePlain (a b : Value) : Bool :=
  match a.numeric?, b.numeric? with
  | some x, some y => x.same y
  | _, _ =>
    match a, b with
    | null, null => true
    | text s, text t => s == t
    | bytes s, bytes t => s == t
    | bytes s, foreign .byteArray | foreign .byteArray, bytes s => s.isEmpty
    | foreign .byteArray, foreign .byteArray
    | foreign .range, foreign .range => true
    | foreign .set, foreign .set
    | foreign .frozenSet, foreign .frozenSet => true
    | foreign .set, foreign .frozenSet
    | foreign .frozenSet, foreign .set => true
    | node m, node n => m.same n
    | _, _ => false

mutual

def same : Value → Value → Bool
  | list as, list bs | tuple as, tuple bs => sameItems as bs
  | dict as, other | mapping as, other =>
    match other.entries? with
    | some bs => as.length == bs.length && sameEntries as bs
    | none => false
  | a, b => samePlain a b

def sameItems : List Value → List Value → Bool
  | [], [] => true
  | a :: as, b :: bs => same a b && sameItems as bs
  | _, _ => false

/-- Whether every entry occurs among `others`. -/
def sameEntries : List (Value × Value) → List (Value × Value) → Bool
  | [], _ => true
  | (key, a) :: rest, others =>
    others.any (fun other => same key other.1 && same a other.2) &&
      sameEntries rest others

end

instance : BEq Value := ⟨same⟩

end Value
end IndexAccess
