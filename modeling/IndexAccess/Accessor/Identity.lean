/-!
# Identities of accessors

Two accessors are one and the same when they have the same identity; what they
do and how they are named counts for nothing.  The accessor of a standard
context belongs to that context, and no declared accessor is the same as it,
whatever name it is declared under.
-/

namespace IndexAccess

inductive Identity where
  | standard
  | declared (name : String)
  | placed (position : Nat)
deriving DecidableEq, Repr

end IndexAccess
