import IndexAccess.Proofs.CommandLine.Arguments
import IndexAccess.Proofs.CommandLine.Piping
import IndexAccess.Proofs.LogLevels

/-!
# Flags for logging

A flag for logging has the settings read later.  Without one, a bad environment
ends a read command before anything is read; with one, it ends the command when
the value that was selected is to be printed, if nothing has ended it before.
Both ends have code one and no output, so that a flag makes no difference to
either.  In the log, debugging shows everything that a read command logs,
whatever level an environment asks for.
-/

namespace IndexAccess
namespace CommandLine

/-- The records that a command writes to its log. -/
def writtenRecords (w : World) (command : Command) : List Log.Record :=
  match logOutput w command with
  | .ok out => (perform w command).records.filter out.accepts
  | .error _ => []

theorem writtenRecords_sublist (w : World) (command : Command) :
    (writtenRecords w command).Sublist (perform w command).records := by
  unfold writtenRecords
  split
  next => exact List.filter_sublist
  next => exact List.nil_sublist _

/-- The log of a report consists of the lines of the written records. -/
theorem report_log (w : World) (command : Command) :
    ∃ out : Log.Output, ∀ milliseconds, (report w milliseconds command).log =
      String.join ((writtenRecords w command).map
        (out.line milliseconds)) := by
  unfold report writtenRecords
  cases logOutput w command with
  | error failure => exact ⟨.bare, fun _ => rfl⟩
  | ok out =>
      refine ⟨out, fun milliseconds => ?_⟩
      dsimp only [reportOf]
      split <;> rfl

section Reading

variable {w : World}

theorem logsFromDebug_printElement (hfeatures : w.features = .builtin)
    (file : String) (indexes : List String) :
    (printElement w file indexes).LogsFromDebug := by
  have hP := Run.logsFromDebug_invariant
  rw [printElement_eq]
  apply hP.andThen (invariant_selected hP hfeatures file indexes)
  intro value
  apply hP.andThen (hP.ofExcept (exitsWithOne_rendered w.environment value))
  intro printed record hmem
  exact nomatch List.mem_singleton.1 hmem

theorem writtenRecords_debug (hfeatures : w.features = .builtin)
    (file : String) (indexes : List String) (verbose : Bool) :
    writtenRecords w (.read file indexes true verbose) =
      (printElement w file indexes).records :=
  (logsFromDebug_printElement hfeatures file indexes).filter_records

theorem writtenRecords_sublist_debug (hfeatures : w.features = .builtin)
    (file : String) (indexes : List String) (debug verbose verbose' : Bool) :
    (writtenRecords w (.read file indexes debug verbose)).Sublist
      (writtenRecords w (.read file indexes true verbose')) := by
  rw [writtenRecords_debug hfeatures]
  exact writtenRecords_sublist w (.read file indexes debug verbose)

end Reading

structure SameResult (plain flagged : Report) : Prop where
  exitCode_eq : flagged.exitCode = plain.exitCode
  output_eq : flagged.output = plain.output

/-- Flags for logging that are added to a read command leave its exit code and
its output as they are, and usage errors are the same.  When the flag for
debugging is among them, what was logged without them is logged with them in
the same order. -/
theorem read_flags_do_not_interfere (w : World)
    (hfeatures : w.features = .builtin) (flags : List String)
    (hflags : ∀ flag ∈ flags, flag ∈ logFlags) (before : List String)
    (hbefore : "--" ∉ before) (after : List String)
    (plainTime flaggedTime : Int) :
    Option.Rel SameResult (report? w plainTime ("read" :: (before ++ after)))
      (report? w flaggedTime ("read" :: (before ++ (flags ++ after)))) ∧
    ("--debug" ∈ flags →
      Option.Rel List.Sublist
        ((parse? ("read" :: (before ++ after))).map (writtenRecords w))
        ((parse? ("read" :: (before ++ (flags ++ after)))).map
          (writtenRecords w))) := by
  rw [report?, report?, parse?_read_flags hflags hbefore]
  cases hparse : parse? ("read" :: (before ++ after)) with
  | none => exact ⟨.none, fun _ => .none⟩
  | some command =>
      obtain ⟨file, indexes, debug, verbose, rfl⟩ := eq_read_of_parse? hparse
      constructor
      · -- Both commands come as far as the same text, or neither of them does.
        have hrenders (value : Value) (printed : String) :
            Renders w file indexes value printed ↔
              Renders w file indexes value printed :=
          Iff.rfl
        obtain ⟨hexit, houtput⟩ := report_congr hfeatures hfeatures
          hrenders debug verbose
          (flags.contains "--debug" || debug)
            (flags.contains "--verbose" || verbose)
          plainTime flaggedTime
        exact .some ⟨hexit.symm, houtput.symm⟩
      · intro hdebug
        have hflagged : (flags.contains "--debug" || debug) = true := by
          rw [List.contains_iff_mem.2 hdebug, Bool.true_or]
        refine .some ?_
        show (writtenRecords w (.read file indexes debug verbose)).Sublist
          (writtenRecords w
            (.read file indexes (flags.contains "--debug" || debug) _))
        rw [hflagged]
        exact writtenRecords_sublist_debug hfeatures file indexes
          debug verbose _

/-- A level that is no name ends the plain command at its start, and the
flagged one when the value that it has selected is to be printed. -/
theorem read_flags_do_not_interfere_with_bad_level :
    let w := World.onInput [(Settings.levelVariable, "loud")] "[true]"
    w.features = .builtin ∧
      (∀ flag ∈ ["--verbose", "--debug"], flag ∈ logFlags) ∧
      "--" ∉ ["-"] ∧ "--debug" ∈ ["--verbose", "--debug"] ∧
      Option.Rel SameResult (report? w 0 ["read", "-", "0"])
        (report? w 7 ["read", "-", "--verbose", "--debug", "0"]) ∧
      Option.Rel List.Sublist
        ((parse? ["read", "-", "0"]).map (writtenRecords w))
        ((parse? ["read", "-", "--verbose", "--debug", "0"]).map
          (writtenRecords w)) := by
  intro w
  have hflags : ∀ flag ∈ ["--verbose", "--debug"], flag ∈ logFlags := by decide
  have hbefore : "--" ∉ ["-"] := by decide
  have hdebug : "--debug" ∈ ["--verbose", "--debug"] := by decide
  have hkept := read_flags_do_not_interfere w rfl
    ["--verbose", "--debug"] hflags ["-"] hbefore
    ["0"] 0 7
  exact ⟨rfl, hflags, hbefore, hdebug, hkept.1, hkept.2 hdebug⟩

end CommandLine
end IndexAccess
