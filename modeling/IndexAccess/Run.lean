import IndexAccess.Accessor.Identity
import IndexAccess.Failure
import IndexAccess.Log.Record

/-!
# Runs

A run is an outcome together with what happened on the way to it: the records
that were logged, the accessors that were called and the text that was printed,
in order.
-/

namespace IndexAccess

inductive Request where
  | canRead
  | read
  | canWrite
  | write (target index value : Value)

inductive Event where
  | logged (record : Log.Record)
  | called (accessor : Identity) (request : Request)
  | printed (text : String)

/-- An outcome and the events before it. -/
structure Run (α : Type) where
  events : List Event
  outcome : Except Failure α

namespace Run

variable {α β : Type}

def ofExcept (outcome : Except Failure α) : Run α := ⟨[], outcome⟩

/-- A run that continues with another one if it succeeds; the events of both
are kept in order. -/
def andThen (run : Run α) (next : α → Run β) : Run β :=
  match run.outcome with
  | .ok a => ⟨run.events ++ (next a).events, (next a).outcome⟩
  | .error failure => ⟨run.events, .error failure⟩

instance : Monad Run where
  pure a := ofExcept (.ok a)
  bind := andThen

/-- A run that only fails. -/
def fail (failure : Failure) : Run α := ofExcept (.error failure)

/-- A run that only logs. -/
def log (level : Nat) (text : String) : Run Unit :=
  ⟨[.logged ⟨level, text⟩], .ok ()⟩

def debug (text : String) : Run Unit := log Log.Level.debug text

/-- A run that only notes a call. -/
def note (accessor : Identity) (request : Request) : Run Unit :=
  ⟨[.called accessor request], .ok ()⟩

/-- A run that only prints a line. -/
def printLine (text : String) : Run Unit :=
  ⟨[.printed (text ++ "\n")], .ok ()⟩

/-- A run with another outcome in place of a failure. -/
def recover (run : Run α) (next : Failure → Except Failure α) : Run α :=
  match run.outcome with
  | .ok _ => run
  | .error failure => ⟨run.events, next failure⟩

def records (run : Run α) : List Log.Record :=
  run.events.filterMap fun
    | .logged record => some record
    | _ => none

def calls (run : Run α) : List (Identity × Request) :=
  run.events.filterMap fun
    | .called accessor request => some (accessor, request)
    | _ => none

def output (run : Run α) : String :=
  String.join (run.events.filterMap fun
    | .printed text => some text
    | _ => none)

theorem bind_eq (run : Run α) (next : α → Run β) :
    run >>= next = run.andThen next := rfl

theorem pure_eq (a : α) : (pure a : Run α) = ⟨[], .ok a⟩ := rfl

theorem id_map_eq (run : Run α) : id <$> run = run := by
  obtain ⟨events, outcome⟩ := run
  cases outcome <;> simp [Functor.map, andThen, ofExcept]

theorem pure_bind_eq (a : α) (next : α → Run β) :
    pure a >>= next = next a := by
  simp [bind_eq, pure_eq, andThen]

theorem bind_assoc_eq {γ : Type} (run : Run α) (next : α → Run β)
    (last : β → Run γ) :
    run >>= next >>= last = run >>= fun a => next a >>= last := by
  obtain ⟨events, outcome⟩ := run
  cases outcome with
  | error failure => rfl
  | ok a =>
    simp only [bind_eq, andThen]
    cases (next a).outcome <;> simp [List.append_assoc]

instance : LawfulMonad Run :=
  LawfulMonad.mk' Run id_map_eq pure_bind_eq bind_assoc_eq

end Run
end IndexAccess
