import IndexAccess.Proofs.CommandLine.Arguments
import IndexAccess.Proofs.CommandLine.ReadCommand
import IndexAccess.Proofs.Text.Utf8

/-!
# Paths in two commands

What one read command prints, a second one can read from its input.  The
printed text is read back as the value that the first command selected, and so
the second command goes on with the walk where the first one has left it.  A
path may thus be followed in two commands or in one, with the same result.
When the first command fails, it prints nothing, and the empty text is no
document.
-/

namespace IndexAccess
namespace CommandLine

open Json

/-! ## Values along a path -/

section Selection

variable {w : World} {file : String} {indexes : List String}

/-- A source holds a document that is read as a value with finite numbers. -/
def HasRoot (w : World) (file : String) (root : Value) : Prop :=
  ∃ text, (document w file).outcome = .ok text ∧
    Json.readDocument text = .ok root ∧
    root.hasFiniteNumbers = true

theorem HasRoot.unique {root other : Value} (hroot : HasRoot w file root)
    (hother : HasRoot w file other) : root = other := by
  obtain ⟨text, htext, hread, -⟩ := hroot
  obtain ⟨text', htext', hread', -⟩ := hother
  obtain rfl := Except.ok.inj (htext.symm.trans htext')
  exact Except.ok.inj (hread.symm.trans hread')

def pathOf (names : List String) : List Value :=
  names.map fun name => .text (.ofString name)

theorem selected_of_walk {root value : Value}
    (hfeatures : w.features = .builtin) (hroot : HasRoot w file root)
    (hwalk : Path.walk root (pathOf indexes) = some value) :
    (selected w file indexes).outcome = .ok value := by
  obtain ⟨text, htext, hread, hfinite⟩ := hroot
  have hdocument := isDocument_of_readDocument hread
  obtain ⟨n, hn⟩ := Node.ofValue_isOk hdocument hfinite
  obtain rfl := Node.native_of_ofValue hdocument hn
  have hanswer := Path.readDocument_of_walk hread hn hwalk
  rw [selected, Run.outcome_bind, htext, Except.bind,
    featureData_read hfeatures, Run.outcome_bind, Run.outcome_bind]
  show ((Feature.readDocument Context.standard text
    (pathOf indexes)).outcome.bind _).bind _ = _
  rw [hanswer]
  rfl

theorem selected_outcome_iff {value : Value}
    (hfeatures : w.features = .builtin) :
    (selected w file indexes).outcome = .ok value ↔
      ∃ root, HasRoot w file root ∧
        Path.walk root (pathOf indexes) = some value := by
  constructor
  · intro h
    obtain ⟨⟨text, kind, htext, hanswer⟩, -⟩ := selects_of_selected hfeatures h
    obtain ⟨root, v, hread, hfinite, hwalk,
        hresult⟩ := Path.walk_of_readDocument
      (Path.isStep_of_mem_map_text Text.ofString indexes) hanswer rfl
    obtain ⟨-, rfl⟩ : _ ∧ value = v := by
      simpa [Result.ok, Feature.record] using hresult
    exact ⟨root, ⟨text, htext, hread, hfinite⟩, hwalk⟩
  · rintro ⟨root, hroot, hwalk⟩
    exact selected_of_walk hfeatures hroot hwalk

theorem selected_append_outcome_iff {before after : List String}
    {value : Value} (hfeatures : w.features = .builtin) :
    (selected w file (before ++ after)).outcome = .ok value ↔
      ∃ middle, (selected w file before).outcome = .ok middle ∧
        Path.walk middle (pathOf after) = some value := by
  have happend : pathOf (before ++ after) = pathOf before ++ pathOf after :=
    List.map_append
  rw [selected_outcome_iff hfeatures, happend]
  constructor
  · rintro ⟨root, hroot, hwalk⟩
    rw [Path.walk_append, Option.bind_eq_some_iff] at hwalk
    obtain ⟨middle, hbefore, hafter⟩ := hwalk
    exact ⟨middle, selected_of_walk hfeatures hroot hbefore, hafter⟩
  · rintro ⟨middle, hmiddle, hafter⟩
    obtain ⟨root, hroot, hbefore⟩ := (selected_outcome_iff hfeatures).1 hmiddle
    refine ⟨root, hroot, ?_⟩
    rw [Path.walk_append, hbefore]
    exact hafter

theorem rendered_of_isDocument {environment : Environment}
    {settings : Settings} {value : Value}
    (hload : Settings.load environment = .ok settings)
    (hindent : settings.indent.getD 0 < 2 ^ 31)
    (hvalue : IsDocument Text.Paired value) :
    ∃ printed, rendered environment value = .ok printed := by
  refine ⟨String.ofList (Json.printed settings.indent 0 value), ?_⟩
  simp only [rendered, hload, bind, Except.bind, Json.print,
    fault?_eq_none hvalue hindent]

end Selection

/-! ## Commands that render the same -/

section Reports

variable {w w' : World} {file file' : String} {indexes indexes' : List String}

/-- A read command comes as far as the text of the value that it selects. -/
structure Renders (w : World) (file : String) (indexes : List String)
    (value : Value) (printed : String) : Prop where
  selected_eq : (selected w file indexes).outcome = .ok value
  rendered_eq : rendered w.environment value = .ok printed

theorem report_cases (hfeatures : w.features = .builtin) (file : String)
    (indexes : List String) (debug verbose : Bool) (milliseconds : Int) :
    (∃ value printed, Renders w file indexes value printed ∧
      (report w milliseconds (.read file indexes debug verbose)).exitCode = 0 ∧
      (report w milliseconds (.read file indexes debug verbose)).output =
        printed ++ "\n") ∨
    ((∀ value printed, ¬ Renders w file indexes value printed) ∧
      (report w milliseconds (.read file indexes debug verbose)).exitCode = 1 ∧
      (report w milliseconds (.read file indexes debug verbose)).output =
        "") := by
  have hcases : _ ∨
      (report w milliseconds (.read file indexes debug verbose)).exitCode = 1 ∧
      _ :=
    rendered_or_failed hfeatures
  rcases hcases with ⟨value, printed, hselected, hrendered⟩ | ⟨hexit, houtput⟩
  · exact .inl ⟨value, printed, ⟨hselected, hrendered⟩,
      report_of_rendered hfeatures hselected hrendered⟩
  · refine .inr ⟨?_, hexit, houtput⟩
    intro value printed h
    rw [(report_of_rendered hfeatures h.selected_eq h.rendered_eq).1] at hexit
    cases hexit

/-- Commands that render the same, or nothing, end with the same exit code and
the same output. -/
theorem report_congr (hfeatures : w.features = .builtin)
    (hfeatures' : w'.features = .builtin) (h : ∀ value printed,
      Renders w file indexes value printed ↔
        Renders w' file' indexes' value printed)
    (debug verbose debug' verbose' : Bool) (milliseconds milliseconds' : Int) :
    (report w milliseconds (.read file indexes debug verbose)).exitCode =
        (report w' milliseconds'
          (.read file' indexes' debug' verbose')).exitCode ∧
      (report w milliseconds (.read file indexes debug verbose)).output =
        (report w' milliseconds'
          (.read file' indexes' debug' verbose')).output := by
  rcases report_cases hfeatures file indexes debug verbose milliseconds with
    ⟨value, printed, hrenders, hexit, houtput⟩ | ⟨hnone, hexit, houtput⟩
  · have hrenders' := (h value printed).1 hrenders
    obtain ⟨hexit', houtput'⟩ :=
      report_of_rendered hfeatures' hrenders'.selected_eq hrenders'.rendered_eq
    rw [hexit, houtput, hexit', houtput']
    exact ⟨rfl, rfl⟩
  · rcases report_cases hfeatures' file' indexes' debug' verbose'
      milliseconds' with
      ⟨value, printed, hrenders', -⟩ | ⟨-, hexit', houtput'⟩
    · exact absurd ((h value printed).2 hrenders') (hnone value printed)
    · rw [hexit, houtput, hexit', houtput']
      exact ⟨rfl, rfl⟩

end Reports

/-! ## What a second command reads -/

section Pipes

variable {w : World} {file : String}

/-- A world in which an output has become the input. -/
def World.piped (w : World) (output : String) : World :=
  { w with input := output.toUTF8.toList }

theorem document_piped {output : String} (h : '\r' ∉ output.toList) :
    (document (w.piped output) "-").outcome = .ok output := by
  show ((w.decoder.decode output.toUTF8.toList).mapError _) = _
  rw [w.decoder.decode_of_ofBytes (Text.ofBytes_toUTF8 h)]
  rfl

theorem hasRoot_piped_iff {output : String} {root : Value}
    (h : '\r' ∉ output.toList) :
    HasRoot (w.piped output) "-" root ↔
      Json.readDocument output = .ok root ∧ root.hasFiniteNumbers = true := by
  constructor
  · rintro ⟨text, htext, hread⟩
    obtain rfl := Except.ok.inj ((document_piped h).symm.trans htext)
    exact hread
  · intro hread
    exact ⟨output, document_piped h, hread⟩

theorem not_mem_return_of_rendered {environment : Environment} {value : Value}
    {printed : String} (hdocument : IsDocument Text.Paired value)
    (hfinite : value.hasFiniteNumbers = true)
    (h : rendered environment value = .ok printed) :
    '\r' ∉ (printed ++ "\n").toList := by
  obtain ⟨settings, -, hprint⟩ := ok_of_bind_eq_ok h
  unfold Json.print at hprint
  split at hprint
  next => cases hprint
  next =>
    obtain rfl := Except.ok.inj hprint
    have hplain := isPlain_printed hdocument hfinite settings.indent 0
    rw [String.toList_append, String.toList_ofList, List.mem_append, not_or]
    exact ⟨hplain.not_mem (by decide), by decide⟩

/-- A second command goes on with the value that the first one has printed. -/
theorem Renders.piped_iff {before : List String} {middle value : Value}
    {printed text : String} (hfeatures : w.features = .builtin)
    (h : Renders w file before middle printed) (after : List String) :
    Renders (w.piped (printed ++ "\n")) "-" after value text ↔
      Renders w file (before ++ after) value text := by
  obtain ⟨-, hdocument, hfinite⟩ := selects_of_selected hfeatures h.selected_eq
  have hreturn := not_mem_return_of_rendered hdocument hfinite h.rendered_eq
  have hread := (printsDocument_of_rendered hdocument hfinite h.rendered_eq).2
  have hroot : HasRoot (w.piped (printed ++ "\n")) "-" middle :=
    (hasRoot_piped_iff hreturn).2 ⟨hread, hfinite⟩
  constructor
  · rintro ⟨hselected, hrendered⟩
    obtain ⟨root, hother, hwalk⟩ :=
      (selected_outcome_iff
        (w := w.piped (printed ++ "\n")) hfeatures).1 hselected
    obtain rfl := hroot.unique hother
    exact ⟨(selected_append_outcome_iff hfeatures).2 ⟨middle, h.selected_eq,
      hwalk⟩, hrendered⟩
  · rintro ⟨hselected, hrendered⟩
    obtain ⟨other, hother, hwalk⟩ :=
      (selected_append_outcome_iff hfeatures).1 hselected
    obtain rfl := Except.ok.inj (h.selected_eq.symm.trans hother)
    exact ⟨selected_of_walk (w := w.piped (printed ++ "\n")) hfeatures hroot
      hwalk, hrendered⟩

/-- The empty text, which a failing command leaves, is no document. -/
theorem not_renders_piped_empty (hfeatures : w.features = .builtin)
    (names : List String) (value : Value) (text : String) :
    ¬ Renders (w.piped "") "-" names value text := by
  rintro ⟨hselected, -⟩
  obtain ⟨root, hroot, -⟩ :=
    (selected_outcome_iff (w := w.piped "") hfeatures).1 hselected
  obtain ⟨hread, -⟩ := (hasRoot_piped_iff (by decide)).1 hroot
  cases hread

theorem not_renders_append {before : List String} {value : Value}
    {text : String} (hfeatures : w.features = .builtin)
    (hindent : ∀ settings, Settings.load w.environment = .ok settings →
      settings.indent.getD 0 < 2 ^ 31)
    (h : ∀ middle printed, ¬ Renders w file before middle printed)
    (after : List String) :
    ¬ Renders w file (before ++ after) value text := by
  rintro ⟨hselected, hrendered⟩
  obtain ⟨middle, hmiddle, -⟩ :=
    (selected_append_outcome_iff hfeatures).1 hselected
  -- The settings load and the indent is not in the way, so that the value on
  -- the way to this one could be rendered as well.
  obtain ⟨settings, hload, -⟩ := ok_of_bind_eq_ok hrendered
  obtain ⟨-, hdocument, -⟩ := selects_of_selected hfeatures hmiddle
  obtain ⟨printed, hprinted⟩ :=
    rendered_of_isDocument hload (hindent settings hload) hdocument
  exact h middle printed ⟨hmiddle, hprinted⟩

end Pipes

def readArguments (file : String) (indexes : List String) : List String :=
  "read" :: file :: "--" :: indexes

theorem report?_readArguments {file : String} (hfile : isOption file = false)
    {indexes : List String} (hindexes : indexes ≠ []) (w : World)
    (milliseconds : Int) :
    report? w milliseconds (readArguments file indexes) =
      some (report w milliseconds (.read file indexes false false)) := by
  obtain ⟨index, others, rfl⟩ := List.exists_cons_of_ne_nil hindexes
  have hparse : parse? (readArguments file (index :: others)) =
      some (.read file (index :: others) false false) := by
    rw [readArguments, parse?_read, split_argument hfile]
    rfl
  rw [report?, hparse]
  rfl

/-- A path may be followed in two read commands, of which the second one reads
what the first one has printed, or in one command with all the indexes: the
exit code and the output are the same.  A first command that fails prints
nothing. -/
theorem read_piped_eq_read_append (w : World)
    (hfeatures : w.features = .builtin)
    (hindent : ∀ settings, Settings.load w.environment = .ok settings →
      settings.indent.getD 0 < 2 ^ 31)
    (file : String) (hfile : isOption file = false)
    (before after : List String) (hbefore : before ≠ []) (hafter : after ≠ [])
    (firstTime secondTime singleTime : Int) :
    ∃ first second single,
      report? w firstTime (readArguments file before) = some first ∧
      report? (w.piped first.output) secondTime
        (readArguments "-" after) = some second ∧
      report? w singleTime
        (readArguments file (before ++ after)) = some single ∧
      second.exitCode = single.exitCode ∧ second.output = single.output ∧
      (first.exitCode ≠ 0 → first.output = "") := by
  refine ⟨_, _, _, report?_readArguments hfile hbefore w firstTime,
    report?_readArguments rfl hafter _ secondTime,
    report?_readArguments hfile (by simp [hbefore]) w singleTime, ?_⟩
  rcases report_cases hfeatures file before false false firstTime with
    ⟨middle, printed, hrenders, hexit, houtput⟩ | ⟨hnone, -, houtput⟩
  · have hcongr := report_congr (w := w.piped (printed ++ "\n"))
      hfeatures hfeatures
      (fun value text => hrenders.piped_iff hfeatures after)
      false false false false secondTime singleTime
    rw [houtput]
    exact ⟨hcongr.1, hcongr.2, fun hne => absurd hexit hne⟩
  · have hcongr := report_congr (w := w.piped "") hfeatures hfeatures
      (fun value text => iff_of_false
        (not_renders_piped_empty hfeatures after value text)
        (not_renders_append hfeatures hindent hnone after))
      false false false false secondTime singleTime
    rw [houtput]
    exact ⟨hcongr.1, hcongr.2, fun _ => rfl⟩

/-- Three steps to a text beyond ASCII, which both ways print with a code
escape. -/
theorem read_piped_eq_read_append_in_nested_array :
    let w := World.onInput [] "[[7, [\"é\"]]]"
    (∀ settings, Settings.load w.environment = .ok settings →
      settings.indent.getD 0 < 2 ^ 31) ∧
    isOption "-" = false ∧ ["0"] ≠ [] ∧ ["01", "00"] ≠ [] ∧
    ∃ first second single,
      report? w 0 (readArguments "-" ["0"]) = some first ∧
      report? (w.piped first.output) 0
        (readArguments "-" ["01", "00"]) = some second ∧
      report? w 0 (readArguments "-" ["0", "01", "00"]) = some single ∧
      second.exitCode = single.exitCode ∧ second.output = single.output ∧
      (first.exitCode ≠ 0 → first.output = "") ∧
      single.exitCode = 0 ∧ single.output = "\"\\u00e9\"\n" := by
  intro w
  have hload : Settings.load [] = .ok ⟨20, some 2⟩ := by cbv
  have hindent : ∀ settings, Settings.load w.environment = .ok settings →
      settings.indent.getD 0 < 2 ^ 31 := by
    intro settings hsettings
    obtain rfl := Except.ok.inj (hload.symm.trans hsettings)
    decide
  have hindexes : ["0"] ≠ [] ∧ ["01", "00"] ≠ [] := by decide
  have hprinted : (report? w 0 (readArguments "-" ["0", "01", "00"])).map
      (fun r => (r.exitCode, r.output)) = some (0, "\"\\u00e9\"\n") := by
    decide +kernel
  obtain ⟨first, second, single, hfirst, hsecond, hsingle, hexit, houtput,
      hempty⟩ :=
    read_piped_eq_read_append w rfl hindent "-" rfl ["0"]
      ["01", "00"] hindexes.1 hindexes.2
      0 0 0
  rw [show ["0"] ++ ["01", "00"] = ["0", "01", "00"] from rfl] at hsingle
  rw [hsingle] at hprinted
  obtain ⟨hzero, htext⟩ := Prod.mk.inj (Option.some.inj hprinted)
  exact ⟨hindent, rfl, hindexes.1, hindexes.2, first, second, single, hfirst,
    hsecond, hsingle, hexit, houtput, hempty, hzero, htext⟩

end CommandLine
end IndexAccess
