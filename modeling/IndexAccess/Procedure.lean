import IndexAccess.Run

/-!
# Procedures

A procedure is a run over a state that it may change.  What it has changed
before it fails stays changed.
-/

namespace IndexAccess

/-- A run over a state, and the state that it leaves whether it succeeds or
fails. -/
def Procedure (σ α : Type) := σ → Run α × σ

namespace Procedure

variable {σ α β : Type}

/-- A procedure that continues with another one if it succeeds. -/
def andThen (p : Procedure σ α) (next : α → Procedure σ β) :
    Procedure σ β := fun s =>
  let (run, s') := p s
  match run.outcome with
  | .ok a =>
    let (later, last) := next a s'
    (⟨run.events ++ later.events, later.outcome⟩, last)
  | .error failure => (⟨run.events, .error failure⟩, s')

instance : Monad (Procedure σ) where
  pure a := fun s => (pure a, s)
  bind := andThen

def get : Procedure σ σ := fun s => (pure s, s)

def modify (change : σ → σ) : Procedure σ Unit := fun s => (pure (), change s)

/-- A run that leaves the state alone. -/
def perform (run : Run α) : Procedure σ α := fun s => (run, s)

def raise (failure : Failure) : Procedure σ α := perform (.fail failure)

/-- What a procedure comes to: its outcome, and the state that it leaves. -/
def result (p : Procedure σ α) (s : σ) : Except Failure α × σ :=
  ((p s).1.outcome, (p s).2)

theorem get_bind_result (next : σ → Procedure σ β) (s : σ) :
    (get >>= next).result s = (next s).result s := rfl

theorem bind_result (p : Procedure σ α) (next : α → Procedure σ β) (s : σ) :
    (p >>= next).result s =
      match p.result s with
      | (.ok a, s') => (next a).result s'
      | (.error failure, s') => (.error failure, s') := by
  show (andThen p next).result s = _
  simp only [result, andThen]
  cases (p s).1.outcome <;> rfl

/-- The state that a procedure leaves, if it succeeds. -/
def final (p : Procedure σ Unit) (s : σ) : Run σ :=
  (fun _ => (p s).2) <$> (p s).1

theorem result_of_final {p : Procedure σ Unit} {s s' : σ}
    (h : (p.final s).outcome = .ok s') :
    p.result s = (.ok (), s') := by
  rcases hp : p s with ⟨⟨events, outcome⟩, last⟩
  rw [final, hp] at h
  rw [result, hp]
  cases outcome with
  | ok => cases h; rfl
  | error failure => cases h

end Procedure
end IndexAccess
