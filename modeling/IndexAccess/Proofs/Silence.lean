import IndexAccess.Proofs.RunInvariant

/-!
# Runs that print nothing

Only commands print and only they choose an exit code.  Reading a document in a
standard context is silent: it prints nothing, and whatever failure it ends
with would end the program with code one.  Silence is an invariant of runs.
-/

namespace IndexAccess
namespace Run

/-- A run that prints nothing and that leaves the exit code to the program. -/
structure IsSilent {α : Type} (run : Run α) : Prop where
  printed : ∀ text, Event.printed text ∉ run.events
  exit : ExitsWithOne run.outcome

variable {α β : Type} {run : Run α}

theorem IsSilent.bind_of_outcome {next : α → Run β} {a : α}
    (hrun : run.IsSilent) (ha : run.outcome = .ok a)
    (hnext : (next a).IsSilent) : (run >>= next).IsSilent := by
  obtain ⟨events, outcome⟩ := run
  obtain rfl : outcome = .ok a := ha
  refine ⟨?_, hnext.exit⟩
  intro text hmem
  rcases List.mem_append.1 hmem with hmem | hmem
  · exact hrun.printed text hmem
  · exact hnext.printed text hmem

theorem IsSilent.bind_of_error {next : α → Run β} {failure : Failure}
    (hrun : run.IsSilent) (h : run.outcome = .error failure) :
    (run >>= next).IsSilent := by
  have hbind : run >>= next = ⟨run.events, .error failure⟩ := by
    simp only [bind_eq, andThen, h]
  rw [hbind]
  exact ⟨hrun.printed, .error (hrun.exit failure h)⟩

theorem isSilent_invariant : Invariant fun _ run => run.IsSilent where
  ofExcept h := ⟨by simp [ofExcept], h⟩
  log _ _ := ⟨by simp [log], .ok ()⟩
  note _ _ := ⟨by simp [note], .ok ()⟩
  bind {_ _ run _} hrun hnext := by
    cases houtcome : run.outcome with
    | ok a => exact hrun.bind_of_outcome houtcome (hnext a houtcome)
    | error failure => exact hrun.bind_of_error houtcome
  settle hrun houtcome := ⟨hrun.printed, houtcome hrun.exit⟩

theorem IsSilent.output_append (h : run.IsSilent) (events : List Event)
    (outcome : Except Failure β) :
    (⟨run.events ++ events, outcome⟩ : Run β).output =
    (⟨events, outcome⟩ : Run β).output := by
  unfold Run.output
  rw [List.filterMap_append, List.filterMap_eq_nil_iff.2, List.nil_append]
  intro event hevent
  cases event with
  | printed text => exact absurd hevent (h.printed text)
  | logged | called => rfl

/-- After a silent run the printed text is all there is. -/
theorem IsSilent.output_concat (h : run.IsSilent) (text : String)
    (outcome : Except Failure β) :
    (⟨run.events ++ [.printed text], outcome⟩ : Run β).output = text := by
  rw [h.output_append]
  simp [Run.output, String.join]

theorem IsSilent.output_eq_empty (h : run.IsSilent) : run.output = "" := by
  have hempty := h.output_append [] run.outcome
  rw [List.append_nil] at hempty
  exact hempty

end Run
end IndexAccess
