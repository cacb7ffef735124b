import IndexAccess.CommandLine.Program
import IndexAccess.Proofs.Json.Tokens
import IndexAccess.Proofs.Path.Walk
import IndexAccess.Proofs.Silence

/-!
# What the read command prints

The read command selects a value and then prints it with the indent of its
environment.  The value is one that documents hold and its numbers are finite,
since it is the native form of a node, so that the printed text is read back as
the value.  The environment has a part in the text only, and none in the value.
-/

namespace IndexAccess

namespace Json

theorem indentFault?_eq_none {width : Nat} (hwidth : width < 2 ^ 31) :
    indentFault? width = none := by
  have hpowers : 2 ^ 31 < memoryBound ∧ 2 ^ 31 < indentBound := by decide
  rw [indentFault?, if_neg (by omega), if_neg (by omega)]

/-- Indents that fit into the memory refuse nothing, so that none of them makes
a difference to what can be printed. -/
theorem fault?_eq {indent other : Option Nat}
    (hindent : indent.getD 0 < 2 ^ 31) (hother : other.getD 0 < 2 ^ 31)
    (v : Value) : fault? indent v = fault? other v := by
  unfold fault?
  rw [indentFault?_eq_none hindent, indentFault?_eq_none hother]

theorem itemsFault?_eq_none {items : List Value}
    (h : ∀ item ∈ items, printFault? item = none) :
    itemsFault? items = none := by
  induction items with
  | nil => rfl
  | cons item rest ih =>
      rw [itemsFault?, h item (by simp),
        ih fun other hother => h other (List.mem_cons_of_mem item hother)]
      rfl

theorem entriesFault?_eq_none {fields : List (Text × Value)}
    (h : ∀ name value, (name, value) ∈ fields → printFault? value = none) :
    entriesFault? (fields.map fun (name, value) => (.text name, value)) =
      none := by
  induction fields with
  | nil => rfl
  | cons field rest ih =>
      obtain ⟨name, value⟩ := field
      rw [List.map_cons, entriesFault?, h name value (by simp),
        ih fun n v hmem => h n v (List.mem_cons_of_mem _ hmem)]
      rfl

theorem printFault?_eq_none {T : Text → Prop} {v : Value}
    (hv : IsDocument T v) :
    printFault? v = none := by
  induction hv with
  | null | boolean | number | text => rfl
  | integer hwritable => rw [printFault?, if_pos hwritable]
  | list _ ih => rw [printFault?, itemsFault?_eq_none ih]
  | dict _ _ _ ih => rw [dictValue, printFault?, entriesFault?_eq_none ih]

/-- A document can be printed with any indent that fits into the memory. -/
theorem fault?_eq_none {T : Text → Prop} {indent : Option Nat} {v : Value}
    (hv : IsDocument T v) (hindent : indent.getD 0 < 2 ^ 31) :
    fault? indent v = none := by
  unfold fault?
  split
  next => rfl
  next =>
    rw [indentFault?_eq_none hindent, printFault?_eq_none hv, Option.or_none]

end Json

namespace CommandLine

open Json

variable {w : World} {file : String} {indexes : List String}
  {debug verbose : Bool} {milliseconds : Int}

/-- The value that a read command selects, before anything depends on how it is
printed. -/
def selected (w : World) (file : String) (indexes : List String) :
    Run Value := do
  let text ← document w file
  let data ← featureData w "read"
    (some ⟨text, indexes.map fun index => .text (.ofString index)⟩)
  Run.ofExcept (data.subscript "value")

/-- A value as the settings of an environment have it printed. -/
def rendered (environment : Environment) (value : Value) :
    Except Failure String := do
  let settings ← Settings.load environment
  Json.print settings.indent value

theorem printElement_eq (w : World) (file : String) (indexes : List String) :
    printElement w file indexes =
      selected w file indexes >>= fun value =>
        Run.ofExcept (rendered w.environment value) >>= printMessage := by
  have hrendered : ∀ value, Run.ofExcept (rendered w.environment value) >>=
      printMessage =
      Run.ofExcept (Settings.load w.environment) >>= fun settings =>
        Run.ofExcept (Json.print settings.indent value) >>= printMessage := by
    intro value
    unfold rendered
    cases Settings.load w.environment <;> rfl
  simp only [printElement, selected, bind_assoc, hrendered]

/-! ## Invariants of selecting and rendering -/

section Silence

theorem featureData_of_get? {name : String} {feature : Feature}
    (h : w.features.get? name = some feature) (inputs : Option Inputs) :
    featureData w name inputs = feature.handler inputs >>=
      Result.require name := by
  rw [featureData, FeatureRegistry.require, h]
  exact pure_bind feature _

theorem featureData_read (hfeatures : w.features = .builtin)
    (inputs : Inputs) :
    featureData w "read" (some inputs) =
      Feature.readDocument Context.standard inputs.document inputs.indexes >>=
        Result.require "read" := by
  have hread : w.features.get? "read" =
      some ⟨"read", "Read indexes from a JSON document",
        Feature.handleRead Context.standard⟩ := by
    rw [hfeatures]
    rfl
  rw [featureData_of_get? hread]
  rfl

theorem exitsWithOne_subscript (v : Value) (name : String) :
    ExitsWithOne (v.subscript name) := by
  unfold Value.subscript
  split
  next => exact .ok _
  next => exact .error rfl

section Invariants

variable {P : (α : Type) → Run α → Prop} (hP : Run.Invariant P)
include hP

theorem invariant_giveUp {α : Type} (text : String) : P α (giveUp text) :=
  hP.andThen (hP.log (by decide) text) fun _ => hP.fail rfl

theorem invariant_document (w : World) (name : String) :
    P String (document w name) := by
  unfold document
  split
  next =>
    unfold inputDocument
    apply hP.ofExcept
    cases w.decoder.decode w.input with
    | ok text => exact .ok text
    | error fault => exact .error rfl
  next =>
    unfold fileDocument
    split
    next => exact invariant_giveUp hP _
    next => exact hP.fail rfl
    next => exact invariant_giveUp hP _
    next =>
      split
      next => exact hP.pure _
      next => exact invariant_giveUp hP _

theorem invariant_requireResult (name : String) (result : Result) :
    P Value (result.require name) := by
  unfold Result.require
  split
  next => exact hP.pure _
  next => exact hP.andThen (hP.log (by decide) _) fun _ => hP.fail rfl

/-- Selecting a value keeps every invariant of runs. -/
theorem invariant_selected (hfeatures : w.features = .builtin) (file : String)
    (indexes : List String) : P Value (selected w file indexes) := by
  apply hP.andThen (invariant_document hP w file)
  intro text
  rw [featureData_read hfeatures]
  refine hP.andThen ?_ fun data => hP.ofExcept (exitsWithOne_subscript data _)
  exact hP.andThen (hP.readDocument _ _) fun result =>
    invariant_requireResult hP "read" result

end Invariants

theorem isSilent_selected (hfeatures : w.features = .builtin) (file : String)
    (indexes : List String) : (selected w file indexes).IsSilent :=
  invariant_selected Run.isSilent_invariant hfeatures file indexes

theorem exitsWithOne_readLevel (raw : Option String) :
    ExitsWithOne (Settings.readLevel raw) := by
  unfold Settings.readLevel
  split
  next => exact .ok _
  next =>
    unfold Settings.levelOf
    split
    next => exact exitsWithOne_integerOfText _
    next =>
      split
      next => exact .ok _
      next => exact .error rfl

theorem exitsWithOne_readIndent (raw : Option String) :
    ExitsWithOne (Settings.readIndent raw) := by
  unfold Settings.readIndent
  split
  next => exact .ok _
  next =>
    split
    next =>
      unfold Settings.indentOf
      split
      next => exact .error rfl
      next =>
        split
        next => exact .ok _
        next => exact .ok _
    next => exact .error rfl

theorem exitsWithOne_rendered (environment : Environment) (value : Value) :
    ExitsWithOne (rendered environment value) := by
  refine ExitsWithOne.bind ?_ fun settings => ?_
  · exact (exitsWithOne_readLevel _).bind fun _ =>
      (exitsWithOne_readIndent _).bind fun _ => .ok _
  · unfold Json.print
    split
    next => exact .error rfl
    next => exact .ok _

end Silence

/-! ## The selected value -/

section Selection

/-- The value that reading a document answers with. -/
def Selects (w : World) (file : String) (indexes : List String)
    (value : Value) : Prop :=
  ∃ text kind, (document w file).outcome = .ok text ∧
    (Feature.readDocument Context.standard text
      (indexes.map fun index => .text (.ofString index))).outcome =
        .ok (.ok (Feature.record [("kind", .text kind), ("value", value)]))

/-- What is selected is what reading answers with, a value that documents
hold. -/
theorem selects_of_selected {value : Value} (hfeatures : w.features = .builtin)
    (h : (selected w file indexes).outcome = .ok value) :
    Selects w file indexes value ∧ IsDocument Text.Paired value ∧
      value.hasFiniteNumbers = true := by
  rw [selected, Run.outcome_bind] at h
  obtain ⟨text, htext, h⟩ := ok_of_bind_eq_ok h
  rw [featureData_read hfeatures, Run.outcome_bind, Run.outcome_bind] at h
  obtain ⟨data, hdata, hvalue⟩ := ok_of_bind_eq_ok h
  obtain ⟨result, hresult, hrequire⟩ := ok_of_bind_eq_ok hdata
  have hsteps := Path.isStep_of_mem_map_text Text.ofString indexes
  have hsuccess : result.success = true := by
    by_contra hfailed
    rw [Result.require, if_neg hfailed] at hrequire
    cases hrequire
  obtain ⟨kind, selection, rfl, hdocument, hfinite⟩ :=
    Path.value_of_readDocument (readsTexts_paired text) hsteps hresult hsuccess
  obtain rfl := Except.ok.inj hrequire
  obtain rfl : selection = value := Except.ok.inj hvalue
  exact ⟨⟨text, kind, htext, hresult⟩, hdocument, hfinite⟩

/-- A rendered document holds no control sequence. -/
theorem plain_rendered {environment : Environment} {value : Value}
    {printed : String} (hdocument : IsDocument Text.Paired value)
    (hfinite : value.hasFiniteNumbers = true)
    (h : rendered environment value = .ok printed) :
    Text.plain printed = printed := by
  obtain ⟨settings, -, hprint⟩ := ok_of_bind_eq_ok h
  unfold Json.print at hprint
  split at hprint
  next => cases hprint
  next =>
    obtain rfl := Except.ok.inj hprint
    apply Text.plain_eq_self
    rw [String.toList_ofList]
    exact (isPlain_printed hdocument hfinite settings.indent
      0).not_mem (by decide)

end Selection

/-! ## Exit codes and output -/

section Reports

theorem reportOf_of_ok (out : Log.Output) {run : Run Unit}
    (h : run.outcome = .ok ()) :
    reportOf out milliseconds run =
      ⟨0, run.output, out.written milliseconds run.records, none⟩ := by
  simp only [reportOf, h]

theorem reportOf_of_error (out : Log.Output) {run : Run Unit}
    (failure : Failure) (hsilent : run.IsSilent)
    (h : run.outcome = .error failure) :
    (reportOf out milliseconds run).exitCode = 1 ∧
      (reportOf out milliseconds run).output = "" := by
  rw [← hsilent.exit failure h, ← hsilent.output_eq_empty]
  unfold reportOf
  rw [h]
  cases failure <;> exact ⟨rfl, rfl⟩

theorem setup_of_load {settings : Settings}
    (h : Settings.load w.environment = .ok settings) (debug verbose : Bool) :
    ∃ out, Log.Output.setup w.environment debug verbose = .ok out := by
  unfold Log.Output.setup
  rw [h]
  split
  next => exact ⟨_, rfl⟩
  next => split <;> exact ⟨_, rfl⟩

theorem report_of_rendered {value : Value} {printed : String}
    (hfeatures : w.features = .builtin)
    (hselected : (selected w file indexes).outcome = .ok value)
    (hrendered : rendered w.environment value = .ok printed) :
    (report w milliseconds (.read file indexes debug verbose)).exitCode = 0 ∧
      (report w milliseconds (.read file indexes debug verbose)).output =
        printed ++ "\n" := by
  have hsilent := isSilent_selected hfeatures file indexes
  obtain ⟨-, hdocument, hfinite⟩ := selects_of_selected hfeatures hselected
  have hplain := plain_rendered hdocument hfinite hrendered
  obtain ⟨settings, hload, -⟩ := ok_of_bind_eq_ok hrendered
  obtain ⟨out, hout⟩ :
      ∃ out, logOutput w (.read file indexes debug verbose) = .ok out :=
    setup_of_load hload debug verbose
  have hrun : perform w (.read file indexes debug verbose) =
      ⟨(selected w file indexes).events ++
        [.printed (printed ++ "\n")], .ok ()⟩ := by
    rw [perform, printElement_eq]
    simp only [Run.bind_eq, Run.andThen, hselected, hrendered, Run.ofExcept,
      printMessage, hplain, Run.printLine]
    rfl
  simp only [report, hout]
  rw [reportOf_of_ok out (by rw [hrun]), hrun]
  exact ⟨rfl, hsilent.output_concat _ _⟩

theorem rendered_or_failed (hfeatures : w.features = .builtin) :
    (∃ value printed, (selected w file indexes).outcome = .ok value ∧
      rendered w.environment value = .ok printed) ∨
    ((report w milliseconds (.read file indexes debug verbose)).exitCode = 1 ∧
      (report w milliseconds (.read file indexes debug verbose)).output =
        "") := by
  unfold report
  cases logOutput w (.read file indexes debug verbose) with
  | error failure => exact .inr ⟨rfl, rfl⟩
  | ok out =>
      have hsilent := isSilent_selected hfeatures file indexes
      dsimp only
      rw [perform, printElement_eq]
      cases hselected : (selected w file indexes).outcome with
      | error failure =>
          refine .inr (reportOf_of_error out failure
            (hsilent.bind_of_error hselected) ?_)
          rw [Run.outcome_bind, hselected]
          rfl
      | ok value =>
          cases hrendered : rendered w.environment value with
          | ok printed => exact .inl ⟨value, printed, rfl, hrendered⟩
          | error failure =>
              have hnext :
                  Run.ofExcept (rendered w.environment value) >>=
                    printMessage =
                  Run.fail failure := by
                rw [hrendered]
                rfl
              have hexit :=
                exitsWithOne_rendered w.environment value failure hrendered
              refine .inr (reportOf_of_error out failure
                (hsilent.bind_of_outcome hselected ?_) ?_)
              · rw [hnext]
                exact Run.isSilent_invariant.fail hexit
              · rw [Run.outcome_bind, hselected, Except.bind, hnext]
                rfl

theorem rendered_or_exitCode_eq_one (hfeatures : w.features = .builtin) :
    (∃ value printed, (selected w file indexes).outcome = .ok value ∧
      rendered w.environment value = .ok printed) ∨
    (report w milliseconds (.read file indexes debug verbose)).exitCode = 1 :=
  (rendered_or_failed hfeatures).imp_right And.left

end Reports

/-! ## The printed document -/

section Printed

/-- An output that is one document and a line feed.  The document is in ASCII,
names no infinity and no not-a-number, and is read as a value. -/
def PrintsDocument (output : String) (value : Value) : Prop :=
  ∃ printed : String, output = printed ++ "\n" ∧
    (∀ c ∈ printed.toList, c.toNat < 128) ∧
    Json.NamesNoConstant printed.toList ∧ Json.readDocument printed = .ok value

/-- A rendered document is read back, with a line feed after it or without. -/
theorem printsDocument_of_rendered {environment : Environment} {value : Value}
    {printed : String} (hdocument : IsDocument Text.Paired value)
    (hfinite : value.hasFiniteNumbers = true)
    (h : rendered environment value = .ok printed) :
    PrintsDocument (printed ++ "\n") value ∧
      Json.readDocument (printed ++ "\n") = .ok value := by
  obtain ⟨settings, -, hprint⟩ := ok_of_bind_eq_ok h
  unfold Json.print at hprint
  split at hprint
  next => cases hprint
  next =>
    obtain rfl := Except.ok.inj hprint
    have hplain := isPlain_printed hdocument hfinite settings.indent 0
    have hread := readDocument_printed hdocument hfinite settings.indent
      (show ∀ p ∈ [], isBlank p = true by simp)
    have hline := readDocument_printed hdocument hfinite settings.indent
      (show ∀ p ∈ CodePoint.ofChars ['\n'], isBlank p = true by simp [isBlank])
    rw [List.append_nil] at hread
    refine ⟨⟨_, rfl, ?_⟩, ?_⟩
    · rw [Text.ofString, String.toList_ofList]
      exact ⟨hplain.ascii, hplain.namesNoConstant, hread⟩
    · rw [Text.ofString, String.toList_append, String.toList_ofList,
        CodePoint.ofChars_append]
      exact hline

theorem rendered_congr {environment other : Environment}
    {settings otherSettings : Settings} {value : Value} {printed : String}
    (hload : Settings.load environment = .ok settings)
    (hother : Settings.load other = .ok otherSettings)
    (hindent : settings.indent.getD 0 < 2 ^ 31)
    (hotherIndent : otherSettings.indent.getD 0 < 2 ^ 31)
    (h : rendered environment value = .ok printed) :
    ∃ otherPrinted, rendered other value = .ok otherPrinted := by
  have hfault : fault? settings.indent value = none := by
    obtain ⟨loaded, hloaded, hprint⟩ := ok_of_bind_eq_ok h
    obtain rfl : settings = loaded := Except.ok.inj (hload.symm.trans hloaded)
    unfold Json.print at hprint
    split at hprint
    next => cases hprint
    next heq => exact heq
  rw [fault?_eq hindent hotherIndent] at hfault
  refine ⟨String.ofList (Json.printed otherSettings.indent 0 value), ?_⟩
  simp only [rendered, hother, bind, Except.bind, Json.print, hfault]

/-- A read command with exit code zero prints the value that reading the
document answers with, as one ASCII document that is read back as that value.
With every other accepted environment whose indent fits into the memory, one
that sets another indent included, the command ends with the same exit code and
its output is read as the same value. -/
theorem read_prints_selected_value (w : World)
    (hfeatures : w.features = .builtin) (file : String) (indexes : List String)
    (debug verbose : Bool) (milliseconds : Int) :
    ((report w milliseconds (.read file indexes debug verbose)).exitCode = 0 →
      ∃ value, Selects w file indexes value ∧
        PrintsDocument (report w milliseconds
          (.read file indexes debug verbose)).output value) ∧
    ∀ (other : Environment) (settings otherSettings : Settings),
      Settings.load w.environment = .ok settings →
      Settings.load other = .ok otherSettings →
      settings.indent.getD 0 < 2 ^ 31 → otherSettings.indent.getD 0 < 2 ^ 31 →
      (report w milliseconds (.read file indexes debug verbose)).exitCode =
          (report { w with environment := other } milliseconds
            (.read file indexes debug verbose)).exitCode ∧
        ((report w milliseconds
          (.read file indexes debug verbose)).exitCode = 0 →
          ∃ value,
            Json.readDocument
              (report w milliseconds
                (.read file indexes debug verbose)).output =
                .ok value ∧
            Json.readDocument
              (report { w with environment := other } milliseconds
              (.read file indexes debug verbose)).output = .ok value) := by
  constructor
  · intro hexit
    have hcases : _ ∨ (report w milliseconds
        (.read file indexes debug verbose)).exitCode = 1 :=
      rendered_or_exitCode_eq_one hfeatures
    rcases hcases with ⟨value, printed, hselected, hrendered⟩ | hone
    · obtain ⟨hselects, hdocument, hfinite⟩ :=
        selects_of_selected hfeatures hselected
      refine ⟨value, hselects, ?_⟩
      rw [(report_of_rendered hfeatures hselected hrendered).2]
      exact (printsDocument_of_rendered hdocument hfinite hrendered).1
    · rw [hexit] at hone
      cases hone
  · intro other settings otherSettings hload hother hindent hotherIndent
    have hfirst : _ ∨ (report w milliseconds
        (.read file indexes debug verbose)).exitCode = 1 :=
      rendered_or_exitCode_eq_one hfeatures
    have hsecond : _ ∨ (report { w with environment := other } milliseconds
        (.read file indexes debug verbose)).exitCode = 1 :=
      rendered_or_exitCode_eq_one hfeatures
    rcases hfirst with ⟨value, printed, hselected, hrendered⟩ | hone
    · obtain ⟨otherPrinted, hotherRendered⟩ :=
        rendered_congr hload hother hindent hotherIndent hrendered
      obtain ⟨-, hdocument, hfinite⟩ := selects_of_selected hfeatures hselected
      obtain ⟨hexit, houtput⟩ :=
        report_of_rendered hfeatures hselected hrendered
      obtain ⟨hotherExit, hotherOutput⟩ :=
        report_of_rendered (w := { w with environment := other })
          hfeatures hselected
          hotherRendered
      rw [hexit, hotherExit, houtput, hotherOutput]
      exact ⟨rfl, fun _ =>
        ⟨value, (printsDocument_of_rendered hdocument hfinite hrendered).2,
        (printsDocument_of_rendered hdocument hfinite hotherRendered).2⟩⟩
    · rcases hsecond with ⟨value, printed, hselected, hrendered⟩ | hotherOne
      · -- The first environment would have the value rendered as well.
        obtain ⟨firstPrinted, hfirstRendered⟩ :=
          rendered_congr hother hload hotherIndent hindent hrendered
        obtain ⟨hexit, -⟩ :=
          report_of_rendered (w := w) hfeatures hselected hfirstRendered
        rw [hexit] at hone
        cases hone
      · rw [hone, hotherOne]
        exact ⟨rfl, fun hzero => absurd hzero (by decide)⟩

/-- A world whose input stream is the text of a document. -/
def World.onInput (environment : Environment) (document : String) : World where
  environment := environment
  file := fun _ => .nothing
  input := document.toUTF8.toList
  decoder := .strict
  features := .builtin

/-- A list with a text beyond ASCII and a fraction, printed over several lines
and on one. -/
theorem read_prints_selected_value_with_two_indents :
    (report (.onInput [] "[[\"é😀\", 0.1, -3]]") 0
      (.read "-" ["0"] false false)).exitCode = 0 ∧
    (∃ value, Selects (.onInput [] "[[\"é😀\", 0.1, -3]]") "-" ["0"] value ∧
      PrintsDocument (report (.onInput [] "[[\"é😀\", 0.1, -3]]") 0
        (.read "-" ["0"] false false)).output value) ∧
    ∃ value,
      Json.readDocument (report (.onInput [] "[[\"é😀\", 0.1, -3]]") 0
        (.read "-" ["0"] false false)).output = .ok value ∧
      Json.readDocument (report
        (.onInput [(Settings.indentVariable, "0")] "[[\"é😀\", 0.1, -3]]") 0
          (.read "-" ["0"] false false)).output = .ok value := by
  have hexit : (report (.onInput [] "[[\"é😀\", 0.1, -3]]") 0
      (.read "-" ["0"] false false)).exitCode = 0 := by decide +kernel
  have hload : Settings.load [] = .ok ⟨20, some 2⟩ := by cbv
  have hother : Settings.load [(Settings.indentVariable, "0")] =
      .ok ⟨20, none⟩ := by cbv
  have hprints := read_prints_selected_value
    (.onInput [] "[[\"é😀\", 0.1, -3]]") rfl "-" ["0"] false false 0
  exact ⟨hexit, hprints.1 hexit,
    (hprints.2 [(Settings.indentVariable, "0")] _ _ hload hother (by decide)
      (by decide)).2 hexit⟩

end Printed

end CommandLine
end IndexAccess
