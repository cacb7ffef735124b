import IndexAccess.Run
import Mathlib

/-!
# Outcomes, events and output of composed runs

A run that continues with another one is opened by the outcome of its first
part: after a success the events of both parts follow each other, and after a
failure nothing more happens.  An outcome that is composed of two parts is a
success only if both of them are.
-/

namespace IndexAccess

theorem ok_of_map_eq_ok {ε α β : Type} {first : Except ε α} {f : α → β} {b : β}
    (h : first.map f = .ok b) : ∃ a, first = .ok a ∧ f a = b := by
  cases first with
  | error fault => cases h
  | ok a => exact ⟨a, rfl, by simpa [Except.map] using h⟩

theorem ok_of_bind_eq_ok {ε α β : Type} {first : Except ε α}
    {f : α → Except ε β} {b : β} (h : first >>= f = .ok b) :
    ∃ a, first = .ok a ∧ f a = .ok b := by
  cases first with
  | error fault => cases h
  | ok a => exact ⟨a, rfl, h⟩

namespace Run

variable {α β : Type}

@[simp] theorem ofExcept_ok_bind (a : α) (next : α → Run β) :
    ofExcept (.ok a) >>= next = next a :=
  pure_bind_eq a next

theorem note_bind (accessor : Identity) (request : Request)
    (next : Unit → Run β) :
    note accessor request >>= next =
      ⟨.called accessor request :: (next ()).events, (next ()).outcome⟩ := rfl

theorem debug_bind (text : String) (next : Unit → Run β) :
    debug text >>= next =
      ⟨.logged ⟨Log.Level.debug, text⟩ :: (next ()).events,
        (next ()).outcome⟩ := rfl

theorem outcome_bind (run : Run α) (next : α → Run β) :
    (run >>= next).outcome = run.outcome.bind fun a => (next a).outcome := by
  obtain ⟨events, outcome⟩ := run
  cases outcome <;> rfl

theorem recover_ok {run : Run α} {a : α} (next : Failure → Except Failure α)
    (h : run.outcome = .ok a) : run.recover next = run := by
  simp [recover, h]

theorem recover_error {run : Run α} {failure : Failure}
    (next : Failure → Except Failure α) (h : run.outcome = .error failure) :
    run.recover next = ⟨run.events, next failure⟩ := by
  simp [recover, h]

theorem recover_events (run : Run α) (next : Failure → Except Failure α) :
    (run.recover next).events = run.events := by
  unfold recover
  split <;> rfl

end Run
end IndexAccess
