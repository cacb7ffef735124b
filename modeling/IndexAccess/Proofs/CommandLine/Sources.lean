import IndexAccess.CommandLine.Program
import IndexAccess.Proofs.CommandLine.Arguments
import IndexAccess.Proofs.Outcome

/-!
# Documents from files and from the input

A read command gives the same answer to the bytes of a file and to the same
bytes on an input stream that is decoded strictly, as files are.  Bytes that
are decoded give one text in both cases, and nothing after that depends on
where it came from.  Bytes that are not decoded end the command with code one
and no output; from a file they are reported in the log, and from the input the
failure to decode them escapes.
-/

namespace IndexAccess
namespace CommandLine

/-- A world in which other bytes are on the input stream, which is decoded
strictly. -/
def World.fed (w : World) (bytes : List UInt8) : World :=
  { w with input := bytes, decoder := .strict }

/-- The failure to decode bytes as a text, if they are none. -/
def undecodable? (bytes : List UInt8) : Option Failure :=
  match Text.ofBytes bytes with
  | .ok _ => none
  | .error fault => some (.value (.undecodable fault))

/-- The reports of reading bytes from a file and from the input: the exit codes
and the outputs are the same, and so is what escapes, but for the failure to
decode the input. -/
structure SourcesAgree (bytes : List UInt8)
    (fromFile fromInput : Report) : Prop where
  exitCode_eq : fromFile.exitCode = fromInput.exitCode
  output_eq : fromFile.output = fromInput.output
  failure_eq : fromInput.failure = fromFile.failure.or (undecodable? bytes)

section Documents

variable {w : World} {file : String} {bytes : List UInt8}

theorem document_of_content (hdash : file ≠ "-")
    (hcontent : w.file file = .content bytes) :
    document w file =
      match Text.ofBytes bytes with
      | .ok text => pure text
      | .error fault => giveUp s!"Cannot read {file}: {fault.message}" := by
  rw [document, beq_false_of_ne hdash, if_neg Bool.false_ne_true]
  cases hdecoded : Text.ofBytes bytes <;> simp only [fileDocument, hcontent,
    hdecoded]

theorem document_fed (w : World) (bytes : List UInt8) :
    document (w.fed bytes) "-" =
      match Text.ofBytes bytes with
      | .ok text => pure text
      | .error fault => Run.fail (.value (.undecodable fault)) := by
  show inputDocument (w.fed bytes) = _
  rw [inputDocument]
  show Run.ofExcept ((Text.ofBytes bytes).mapError _) = _
  cases Text.ofBytes bytes <;> rfl

variable (indexes : List String) (debug verbose : Bool)

theorem perform_fed_of_decoded (hdash : file ≠ "-")
    (hcontent : w.file file = .content bytes) {text : String}
    (htext : Text.ofBytes bytes = .ok text) :
    perform (w.fed bytes) (.read "-" indexes debug verbose) =
      perform w (.read file indexes debug verbose) := by
  rw [perform, perform, printElement, printElement,
    document_of_content hdash hcontent, document_fed, htext]
  rfl

theorem perform_of_undecodable (hdash : file ≠ "-")
    (hcontent : w.file file = .content bytes) {fault : Utf8Fault}
    (hfault : Text.ofBytes bytes = .error fault) :
    perform w (.read file indexes debug verbose) =
      ⟨[.logged ⟨Log.Level.error, s!"Cannot read {file}: {fault.message}"⟩],
        .error (.exit 1)⟩ := by
  rw [perform, printElement, document_of_content hdash hcontent, hfault]
  rfl

theorem perform_fed_of_undecodable (w : World) {fault : Utf8Fault}
    (hfault : Text.ofBytes bytes = .error fault) :
    perform (w.fed bytes) (.read "-" indexes debug verbose) =
      ⟨[], .error (.value (.undecodable fault))⟩ := by
  rw [perform, printElement, document_fed, hfault]
  rfl

end Documents

section Reports

variable {w : World} {file : String} {bytes : List UInt8}

/-- The time of a report has a part in its log only. -/
theorem sourcesAgree_of_decoded (hdecoded : undecodable? bytes = none)
    (out : Log.Output) (run : Run Unit) (fileTime inputTime : Int) :
    SourcesAgree bytes (reportOf out fileTime run)
      (reportOf out inputTime run) := by
  obtain ⟨events, outcome⟩ := run
  cases outcome with
  | ok => constructor <;> simp [reportOf, hdecoded]
  | error failure =>
      cases failure <;> constructor <;> simp [reportOf, hdecoded]

theorem sourcesAgree_report (hdash : file ≠ "-")
    (hcontent : w.file file = .content bytes) (indexes : List String)
    (debug verbose : Bool) (fileTime inputTime : Int) :
    SourcesAgree bytes (report w fileTime (.read file indexes debug verbose))
      (report (w.fed bytes) inputTime (.read "-" indexes debug verbose)) := by
  have hlog : logOutput (w.fed bytes) (.read "-" indexes debug verbose) =
      logOutput w (.read file indexes debug verbose) := rfl
  rw [report, report, hlog]
  cases logOutput w (.read file indexes debug verbose) with
  | error failure => exact ⟨rfl, rfl, rfl⟩
  | ok out =>
      cases hdecoded : Text.ofBytes bytes with
      | ok text =>
          have hnone : undecodable? bytes = none := by
            rw [undecodable?, hdecoded]
          rw [perform_fed_of_decoded indexes debug verbose hdash
            hcontent hdecoded]
          exact sourcesAgree_of_decoded hnone out _ fileTime inputTime
      | error fault =>
          have hsome : undecodable? bytes =
              some (.value (.undecodable fault)) := by
            rw [undecodable?, hdecoded]
          rw [perform_of_undecodable indexes debug verbose hdash
            hcontent hdecoded,
              perform_fed_of_undecodable indexes debug verbose w hdecoded]
          exact ⟨rfl, rfl, by rw [hsome]; rfl⟩

end Reports

/-- A read command ends with the same exit code and the same output whether it
finds bytes in a file or on an input stream that is decoded strictly, with any
flags and any indexes, and usage errors are the same.  What escapes is the same
as well, except that bytes that are no text make a failure of the input and an
entry of the log for a file. -/
theorem read_from_file_agrees_with_input (w : World) (file : String)
    (hfile : isOption file = false) (hdash : file ≠ "-") (bytes : List UInt8)
    (hcontent : w.file file = .content bytes) (flags : List String)
    (hflags : ∀ flag ∈ flags, flag ∈ logFlags) (indexes : List String)
    (fileTime inputTime : Int) :
    Option.Rel (SourcesAgree bytes)
      (report? w fileTime ("read" :: (flags ++ file :: indexes)))
      (report? (w.fed bytes) inputTime
        ("read" :: (flags ++ "-" :: indexes))) := by
  obtain ⟨parsed, hparsed⟩ := exists_parse?_read_file indexes
  have hparse : ∀ name, isOption name = false →
      parse? ("read" :: (flags ++ name :: indexes)) =
      (parsed.map (Command.ofFile name)).map (Command.withFlags flags) := by
    intro name hname
    rw [← hparsed name hname]
    exact parse?_read_flags hflags List.not_mem_nil (name :: indexes)
  rw [report?, report?, hparse file hfile, hparse "-" rfl]
  cases parsed with
  | none => exact .none
  | some parsed =>
      obtain ⟨others, debug, verbose⟩ := parsed
      exact .some (sourcesAgree_report hdash hcontent others _ _
        fileTime inputTime)

/-- A byte that no text starts with, after a flag, in a file and on the
input. -/
theorem read_from_file_agrees_with_input_on_undecodable :
    let w : World := ⟨[], fun _ => .content [0xff], [], .strict, .builtin⟩
    isOption "data.json" = false ∧ "data.json" ≠ "-" ∧
      w.file "data.json" = .content [0xff] ∧
      (∀ flag ∈ ["--verbose"], flag ∈ logFlags) ∧
      Option.Rel (SourcesAgree [0xff])
        (report? w 0 ["read", "--verbose", "data.json", "0"])
        (report? (w.fed [0xff]) 0 ["read", "--verbose", "-", "0"]) := by
  intro w
  have hflags : ∀ flag ∈ ["--verbose"], flag ∈ logFlags := by decide
  exact ⟨rfl, by decide, rfl, hflags,
    read_from_file_agrees_with_input w "data.json" rfl (by decide)
      [0xff] rfl ["--verbose"]
      hflags ["0"] 0 0⟩

/-- From the input, the failure to decode a byte escapes, and from a file it
does not. -/
theorem undecodable_input_escapes :
    let w : World := ⟨[], fun _ => .content [0xff], [0xff], .strict, .builtin⟩
    ((report? w 0 ["read", "data.json", "0"]).map fun r =>
      (r.exitCode, r.failure.isSome)) =
        some (1, false) ∧
      ((report? w 0 ["read", "-", "0"]).map fun r =>
        (r.exitCode, r.failure.isSome)) =
        some (1, true) := by
  decide +kernel

end CommandLine
end IndexAccess
