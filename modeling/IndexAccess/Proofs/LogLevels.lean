import IndexAccess.Log.Output
import IndexAccess.Proofs.RunInvariant

/-!
# Levels of logged records

Reading a document in a standard context logs for debugging alone, and what a
command logs besides is an error.  Debugging therefore shows every record that
there is.
-/

namespace IndexAccess
namespace Run

/-- No record of a run has a lower level than that of debugging. -/
def LogsFromDebug {α : Type} (run : Run α) : Prop :=
  ∀ record, Event.logged record ∈ run.events →
    (Log.Level.debug : Int) ≤ record.level

theorem logsFromDebug_invariant :
    Invariant fun _ run => run.LogsFromDebug where
  ofExcept _ _ h := nomatch h
  log h _ record hmem := by
    cases List.mem_singleton.1 hmem
    exact Int.ofNat_le.2 h
  note _ _ _ h := nomatch List.mem_singleton.1 h
  bind {_ _ run _} hrun hnext := by
    obtain ⟨events, outcome⟩ := run
    cases outcome with
    | error failure => exact hrun
    | ok a =>
        intro record hmem
        rcases List.mem_append.1 hmem with hmem | hmem
        · exact hrun record hmem
        · exact hnext a rfl record hmem
  settle hrun _ := hrun

/-- Debugging shows every record of such a run. -/
theorem LogsFromDebug.filter_records {α : Type} {run : Run α}
    (h : run.LogsFromDebug) :
    run.records.filter (Log.Output.timed Log.Level.debug).accepts =
      run.records := by
  rw [List.filter_eq_self]
  intro record hmem
  rcases List.mem_filterMap.1 hmem with ⟨event, hevent, heq⟩
  cases event with
  | logged other =>
      obtain rfl := Option.some.inj heq
      have hlevel : (10 : Int) ≤ other.level := h other hevent
      have hpositive : 0 < other.level := by omega
      rw [Log.Output.accepts, decide_eq_true hpositive, Bool.true_and,
        decide_eq_true_iff]
      exact hlevel
  | called | printed => cases heq

end Run
end IndexAccess
