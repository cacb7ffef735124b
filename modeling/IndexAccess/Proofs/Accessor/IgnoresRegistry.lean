import IndexAccess.Accessor.Scripted

/-!
# Accessors that ignore the registry

A host gives itself to the accessors that it calls, and with it whatever can be
read through the accessors that are registered there.  An accessor ignores the
registry if nothing of this counts: of all that its host offers it looks at the
variables alone.  The accessor of array elements does not even look at these.
-/

namespace IndexAccess
namespace Accessor

/-- What an accessor agrees to and what it comes to is the same in all hosts
with the same variables. -/
structure IgnoresRegistry (a : Accessor) : Prop where
  canRead_eq {host other : Host} (h : host.bindings = other.bindings)
    (target index : Value) :
    a.canRead host target index = a.canRead other target index
  read_outcome_eq {host other : Host} (h : host.bindings = other.bindings)
    (target index : Value) :
    (a.read host target index).outcome = (a.read other target index).outcome
  canWrite_eq {host other : Host} (h : host.bindings = other.bindings)
    (target index : Value) :
    a.canWrite host target index = a.canWrite other target index
  write_outcome_eq {host other : Host} (h : host.bindings = other.bindings)
    (target index value : Value) :
    (a.write host target index value).outcome =
      (a.write other target index value).outcome

/-- Nor does it call accessors in one of these hosts that it does not call in
another. -/
structure CallsIgnoreRegistry (a : Accessor) : Prop
    extends IgnoresRegistry a where
  read_calls_eq {host other : Host} (h : host.bindings = other.bindings)
    (target index : Value) :
    (a.read host target index).calls = (a.read other target index).calls
  write_calls_eq {host other : Host} (h : host.bindings = other.bindings)
    (target index value : Value) :
    (a.write host target index value).calls =
      (a.write other target index value).calls

theorem callsIgnoreRegistry_of_eq {a : Accessor}
    (hcanRead : ∀ host other, a.canRead host = a.canRead other)
    (hread : ∀ host other : Host, host.bindings = other.bindings →
      a.read host = a.read other)
    (hcanWrite : ∀ host other, a.canWrite host = a.canWrite other)
    (hwrite : ∀ host other, a.write host = a.write other) :
    a.CallsIgnoreRegistry where
  canRead_eq _ _ _ := by rw [hcanRead]
  read_outcome_eq h _ _ := by rw [hread _ _ h]
  canWrite_eq _ _ _ := by rw [hcanWrite]
  write_outcome_eq _ _ _ _ := by rw [hwrite]
  read_calls_eq h _ _ := by rw [hread _ _ h]
  write_calls_eq _ _ _ _ := by rw [hwrite]

theorem arrayElement_callsIgnoreRegistry (identity : Identity) :
    (arrayElement identity).CallsIgnoreRegistry :=
  callsIgnoreRegistry_of_eq
    (fun _ _ => rfl) (fun _ _ _ => rfl) (fun _ _ => rfl) (fun _ _ => rfl)

end Accessor

/-- A scripted accessor ignores the registry unless it forwards what it
reads. -/
theorem Script.callsIgnoreRegistry {s : Script}
    (hread : ∀ other, s.read ≠ .forwarded other) (identity : Identity)
    (scope : Variables) :
    (s.accessor identity scope).CallsIgnoreRegistry := by
  refine Accessor.callsIgnoreRegistry_of_eq
    (fun _ _ => rfl) ?_ (fun _ _ => rfl) (fun _ _ => rfl)
  intro host other h
  funext target index
  show s.read.run scope host target index = s.read.run scope other target index
  cases heq : s.read with
  | stored name => rw [ScriptedRead.run, ScriptedRead.run, h]
  | forwarded other => exact absurd heq (hread other)
  | _ => rfl

end IndexAccess
