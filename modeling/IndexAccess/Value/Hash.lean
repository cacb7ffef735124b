import IndexAccess.Value.Distinct

/-!
# Duplicates by hash and equality

A collection of members that are found again by their hash looks for a member
with the same hash that is equal.  The hashes of values of the built-in classes
and of tuples are given; a leaf is hashed as the tuple of the name of its class
and its scalar, a typed value as the tuple of its value and its tag, and a
container node cannot be hashed.
-/

namespace IndexAccess

/-- The hashes of values of the built-in classes, and of a tuple by those of
its items. -/
structure Hashing where
  builtin : Value → Int
  tuple : List Int → Int

namespace Hashing

variable (h : Hashing)

def leaf (n : Node) : Int :=
  h.tuple [h.builtin (.text (Text.ofString n.classOf.name)),
    h.builtin n.native]

def node (n : Node) : Except Failure Int :=
  if n.isContainer then .error (.value (.unhashable n.classOf))
  else .ok (h.leaf n)

def value : Value → Except Failure Int
  | .node n => h.node n
  | v => do
    v.requireHashable
    return h.builtin v

def typed (t : TypedValue) : Except Failure Int := do
  let content ← h.value t.value
  return h.tuple [content, h.builtin (.text (Text.ofString t.kind))]

end Hashing

/-- The kept members, each under its hash, with one more at the end, unless one
that is equal to it has the same hash. -/
def keepByHash {α : Type} [BEq α] (hash : α → Except Failure Int)
    (kept : List (Int × α)) (member : α) :
    Except Failure (List (Int × α)) := do
  let code ← hash member
  if kept.any (fun entry => entry.1 == code && entry.2 == member) then
    return kept
  else return kept ++ [(code, member)]

def distinctByHash {α : Type} [BEq α] (hash : α → Except Failure Int)
    (members : List α) :
    Except Failure (List α) := do
  let kept ← members.foldlM (keepByHash hash) []
  return kept.map Prod.snd

end IndexAccess
