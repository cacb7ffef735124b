import IndexAccess.Failure
import IndexAccess.TypedValue

/-!
# Values without duplicates

Only values that cannot change may serve as keys of a dictionary or as members
of a set.  Removing duplicates keeps the first member of every class of equal
ones; members are supplied and kept one after the other, so that the first
member that is missing or may change decides on the failure.
-/

namespace IndexAccess
namespace Value

mutual

/-- The class of the first changeable value inside a value: lists, mappings,
sets, and container nodes can change, and a tuple is as fixed as its items. -/
def unhashable? : Value → Option Class
  | tuple items => unhashableItem? items
  | list _ => some .list
  | dict _ => some .dict
  | mapping _ => some .mapping
  | foreign .set => some .set
  | foreign .byteArray => some .byteArray
  | node n => if n.isContainer then some n.classOf else none
  | _ => none

def unhashableItem? : List Value → Option Class
  | [] => none
  | item :: rest =>
    match unhashable? item with
    | some type => some type
    | none => unhashableItem? rest

end

def requireHashable (v : Value) : Except Failure Unit :=
  match v.unhashable? with
  | some type => .error (.value (.unhashable type))
  | none => .ok ()

end Value

/-- The kept members with one more at the end, unless it is equal to one of
them. -/
def keepFirst {α : Type} [BEq α] (kept : List α) (member : α) : List α :=
  if kept.any (· == member) then kept else kept ++ [member]

/-- The members of a list without those equal to an earlier one. -/
def firstOccurrences {α : Type} [BEq α] (members : List α) : List α :=
  members.foldl keepFirst []

/-- The kept members with a supplied one, whose content has to be fixed. -/
def keepSupplied {α : Type} [BEq α] (content : α → Value) (kept : List α)
    (supplied : Except Failure α) : Except Failure (List α) := do
  let member ← supplied
  (content member).requireHashable
  return keepFirst kept member

/-- The first occurrences among members that are supplied one after the
other. -/
def distinctMembers {α : Type} [BEq α] (content : α → Value)
    (supplied : List (Except Failure α)) : Except Failure (List α) :=
  supplied.foldlM (keepSupplied content) []

theorem keepSupplied_ok {α : Type} [BEq α] {content : α → Value}
    (kept : List α) {member : α} (h : (content member).unhashable? = none) :
    keepSupplied content kept (.ok member) = .ok (keepFirst kept member) := by
  simp [keepSupplied, Value.requireHashable, h, bind, Except.bind, pure,
    Except.pure]

theorem keepSupplied_error {α : Type} [BEq α] {content : α → Value}
    (kept : List α) {member : α} {type : Class}
    (h : (content member).unhashable? = some type) :
    keepSupplied content kept (.ok member) =
      .error (.value (.unhashable type)) := by
  simp [keepSupplied, Value.requireHashable, h, bind, Except.bind]

/-- Values without duplicates; every one of them has to be fixed. -/
def Value.distinct (supplied : List (Except Failure Value)) :
    Except Failure (List Value) :=
  distinctMembers id supplied

/-- Typed values without duplicates; what they hold has to be fixed. -/
def TypedValue.distinct (supplied : List (Except Failure TypedValue)) :
    Except Failure (List TypedValue) :=
  distinctMembers TypedValue.value supplied

end IndexAccess
