/-!
# Powers

The numbers of the model are computed with the powers of the core library.  A
module that computes with them takes `corePower` as its instance, so that its
definitions do not depend on the algebraic structures in scope.
-/

namespace IndexAccess

/-- The power with a natural exponent. -/
abbrev corePower {α : Type} [NatPow α] : Pow α Nat := instPowNat

end IndexAccess
