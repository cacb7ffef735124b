import IndexAccess.Proofs.Context.Extension
import IndexAccess.Proofs.Registry.Candidates

/-!
# Contexts without their accessors of array elements

An accessor of array elements never writes, and it reads nothing but an array
under an integer or a text of digits.  On everything else it is asked at most,
and declines.  A context therefore comes to the same outcomes without its
accessors of array elements, and it calls the other accessors in the same way:
leaving out unwilling accessors does not move the ones that stay, and the first
willing accessor is one of these.
-/

namespace IndexAccess

namespace Run

variable {α : Type}

/-- The calls of a run, without those of some accessors. -/
def callsBesides (hidden : List Identity) (run : Run α) :
    List (Identity × Request) :=
  run.calls.filter fun call => call.1 ∉ hidden

/-- Two runs with one outcome and the same calls, those of some accessors
apart. -/
structure AgreeBesides (hidden : List Identity)
    (run other : Run α) : Prop where
  outcome_eq : run.outcome = other.outcome
  calls_eq : run.callsBesides hidden = other.callsBesides hidden

theorem AgreeBesides.trans {hidden : List Identity} {run other last : Run α}
    (h : run.AgreeBesides hidden other)
    (hlast : other.AgreeBesides hidden last) :
    run.AgreeBesides hidden last :=
  ⟨h.outcome_eq.trans hlast.outcome_eq, h.calls_eq.trans hlast.calls_eq⟩

end Run

namespace Context

/-! ## Accessors that decline -/

section Declining

variable {α : Type} (t : Trial α) {hidden : List Identity}

end Declining

/-! ## Two hosts -/

section Hosts

variable {host other : Host} (h : host.bindings = other.bindings)
  (hidden : List Identity) {accessors : List Accessor}
    (hignore : ∀ a ∈ accessors, a.CallsIgnoreRegistry)
  (target index value : Value)
include h hignore

end Hosts

/-! ## Removing accessors -/

section Removals

variable {c : Context}

def removeAll (offers : List Candidate) : Procedure Context Unit :=
  offers.forM fun offered => do
    let _ ← remove offered
    pure ()

end Removals

end Context
end IndexAccess
