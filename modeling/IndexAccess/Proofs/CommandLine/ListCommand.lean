import IndexAccess.Proofs.CommandLine.LogFlags
import IndexAccess.Proofs.Registry.Listing

/-!
# What the listing command prints

The listing command prints one line for every entry of the listing of its
registry.  Nothing that it prints depends on the environment or on how it logs.
The settings are read before it starts unless debugging is asked for, so that
bad ones end it with code one and no output, be they settings that it uses or
not.
-/

namespace IndexAccess
namespace CommandLine

/-! ## The printed lines -/

section Printing

/-- An entry of a listing as the handler of the command answers it. -/
def textEntry (entry : String × String) : Value × Value :=
  (.text entry.1, .text entry.2)

/-- The line of an entry of a listing. -/
def entryLine (entry : String × String) : String :=
  Text.plain s!"  {padded 30 entry.1} {entry.2}" ++ "\n"

/-- What is printed for a listing, line by line. -/
def listingLines (entries : List (String × String)) : List String :=
  if entries = [] then ["  No index accessors registered.\n"]
  else "Registered index accessors:\n" :: entries.map entryLine

/-- That the feature for listing has the handler which lists the registry of a
context. -/
def Lists (features : FeatureRegistry) (context : Run Context) : Prop :=
  ∃ name description, features.get? "list-accessors" =
    some ⟨name, description, Feature.handleListAccessors context⟩

theorem featureData_of_lists {w : World} {context : Run Context}
    (h : Lists w.features context) :
    featureData w "list-accessors" none = context >>= fun c =>
      pure (.dict [(.text "accessors",
        .dict (c.registry.listing.map textEntry))]) := by
  rcases h with ⟨name, description, hget⟩
  have hhandler : Feature.handleListAccessors context none =
      context >>= fun c =>
      pure (.ok (.dict [(.text "accessors",
        .dict (c.registry.listing.map textEntry))])) := by
    rw [Feature.handleListAccessors, Feature.listAccessors]
    simp only [Feature.record, List.map_map]
    rfl
  rw [featureData_of_get? hget]
  dsimp only
  rw [hhandler, bind_assoc]
  rfl

theorem printEntry_textEntry (entry : String × String) :
    printEntry (textEntry entry) = ⟨[.printed (entryLine entry)], .ok ()⟩ := by
  simp only [printEntry, textEntry, columnText, Value.toText,
    Run.ofExcept_ok_bind, Text.toString_ofString]
  rfl

theorem forM_printEntry (entries : List (String × String)) :
    (entries.map textEntry).forM printEntry =
      ⟨(entries.map entryLine).map .printed, .ok ()⟩ := by
  induction entries with
  | nil => rfl
  | cons entry rest ih =>
      have hcons : ((entry :: rest).map textEntry).forM printEntry =
          printEntry (textEntry entry) >>= fun _ =>
            (rest.map textEntry).forM printEntry := rfl
      rw [hcons, printEntry_textEntry, ih]
      rfl

theorem printListing_texts (entries : List (String × String)) :
    printListing (.dict (entries.map textEntry)) =
      ⟨(listingLines entries).map .printed, .ok ()⟩ := by
  cases entries with
  | nil => rfl
  | cons entry rest =>
      have hlines : printListing (.dict ((entry :: rest).map textEntry)) =
          printMessage "Registered index accessors:" >>= fun _ =>
            ((entry :: rest).map textEntry).forM printEntry := rfl
      rw [hlines, forM_printEntry, listingLines,
        if_neg (List.cons_ne_nil entry rest)]
      rfl

theorem perform_of_lists {w : World} {context : Run Context}
    (h : Lists w.features context) (debug : Bool) :
    perform w (.listAccessors debug) = context >>= fun c =>
      ⟨(listingLines c.registry.listing).map .printed, .ok ()⟩ := by
  rw [perform, printAccessors, featureData_of_lists h, bind_assoc]
  simp only [pure_bind, ← printListing_texts]
  rfl

/-- A world whose listing command lists the registry of a given context. -/
def World.listing (w : World) (c : Context) : World :=
  { w with
    features := w.features.register ⟨"list-accessors",
      "List registered index accessors",
      Feature.handleListAccessors (pure c)⟩ }

theorem lists_listing (w : World) (c : Context) :
    Lists (w.listing c).features (pure c) :=
  ⟨_, _, Entries.get?_put_self _ _ _⟩

theorem output_printed (lines : List String) (outcome : Except Failure Unit) :
    (⟨lines.map .printed, outcome⟩ : Run Unit).output = String.join lines := by
  rw [Run.output, List.filterMap_map]
  exact congrArg String.join (List.filterMap_some)

end Printing

/-- After any calls of a registry, its listing has one entry for every name of
an accessor that is registered, in the order in which these names come first.
The entry describes the accessor that was registered last under its name, so
that nobody is lost exactly if the names are all different; every accessor then
has its own entry, in the order of registration.  The listing command prints
the entries one by one. -/
theorem listing_describes_last_of_each_name (calls : List Registry.Call)
    (bindings : Variables) (w : World) (debug : Bool) :
    let r := (Registry.empty.run calls).1
    let registered := Registry.standing (Registry.empty.run calls).2.changes
    let text (a : Accessor) : String :=
      "[" ++ (if a.targets = [] then "*"
        else ", ".intercalate (a.targets.map Class.name)) ++
        "] " ++ a.description
    let run := perform (w.listing ⟨r, bindings⟩) (.listAccessors debug)
    r.size = registered.length ∧
    Entries.keys r.listing = (registered.map (·.name)).eraseDups ∧
    (∀ name shown, (name, shown) ∈ r.listing ↔
      ∃ earlier a later, registered = earlier ++ a :: later ∧ a.name = name ∧
        text a = shown ∧ ∀ b ∈ later, b.name ≠ name) ∧
    (r.listing.length = registered.length ↔ (registered.map (·.name)).Nodup) ∧
    ((registered.map (·.name)).Nodup →
      r.listing = registered.map fun a => (a.name, text a)) ∧
    run.outcome = .ok () ∧
      run.output = String.join (listingLines r.listing) := by
  intro r registered text run
  have hinv : Registry.HistoryInvariant r (Registry.empty.run calls).2 :=
    Registry.run_historyInvariant Registry.empty_historyInvariant calls
  have hregistered : registered = r.accessors := hinv.accessors_eq.symm
  have htext : text = Accessor.summary := funext fun a => a.summary_eq.symm
  have hrun : run = ⟨(listingLines r.listing).map .printed, .ok ()⟩ :=
    perform_of_lists (lists_listing w ⟨r, bindings⟩) debug
  rw [hregistered, htext, hrun]
  exact ⟨rfl, r.keys_listing, fun name shown => r.mem_listing_iff,
    r.length_listing_iff, r.listing_of_nodup, rfl, output_printed _ _⟩

/-- Of two registered accessors with one name the first is not described. -/
theorem listing_hides_accessor_of_shared_name :
    let named (documentation : String) (targets : List Class)
      (position : Nat) : Accessor :=
      Script.accessor ⟨"Custom", some documentation, targets, .always, .never,
        .null, .accepts⟩
        (.placed position) []
    let r := (Registry.empty.run
      [.register (.accessor (named "First" [.text] 0)),
        .register (.accessor (named "Second" [] 1))]).1
    r.size = 2 ∧ r.listing = [("Custom", "[*] Second")] := by
  intro named r
  exact ⟨rfl, by decide +kernel⟩

/-! ## What the environment decides -/

section Settings

theorem sameResult_reportOf (out out' : Log.Output)
    (milliseconds milliseconds' : Int) (run : Run Unit) :
    SameResult (reportOf out milliseconds run)
      (reportOf out' milliseconds' run) := by
  unfold reportOf
  cases run.outcome with
  | ok => exact ⟨rfl, rfl⟩
  | error failure => cases failure <;> exact ⟨rfl, rfl⟩

def listArguments (debug : Bool) : List String :=
  "list-accessors" :: if debug then ["--debug"] else []

theorem report?_listArguments (w : World) (milliseconds : Int) (debug : Bool) :
    report? w milliseconds (listArguments debug) =
      some (report w milliseconds (.listAccessors debug)) := by
  cases debug <;> rfl

/-- Whether the listing command comes to list anything: with the flag for
debugging it does not read the settings, and without it they have to be
good. -/
def StartsListing (environment : Environment) (debug : Bool) : Prop :=
  debug = true ∨ ∃ settings, Settings.load environment = .ok settings

variable {w w' : World} {debug debug' : Bool}

theorem report_of_startsListing (h : StartsListing w.environment debug) :
    ∃ out, ∀ milliseconds, report w milliseconds (.listAccessors debug) =
      reportOf out milliseconds (perform w (.listAccessors debug)) := by
  have hout : ∃ out, logOutput w (.listAccessors debug) = .ok out := by
    rcases h with rfl | ⟨settings, hload⟩
    · exact ⟨.timed Log.Level.debug, rfl⟩
    · exact setup_of_load hload debug false
  rcases hout with ⟨out, hout⟩
  refine ⟨out, fun milliseconds => ?_⟩
  simp only [report, hout]

/-- Bad settings end the command before it lists anything. -/
theorem report_of_not_startsListing (h : ¬StartsListing w.environment debug) :
    ∃ failure, Settings.load w.environment = .error failure ∧
      ∀ milliseconds, report w milliseconds (.listAccessors debug) =
        ⟨1, "", "", some failure⟩ := by
  rw [StartsListing, not_or] at h
  cases hload : Settings.load w.environment with
  | ok settings => exact absurd ⟨settings, hload⟩ h.2
  | error failure =>
      refine ⟨failure, rfl, fun milliseconds => ?_⟩
      rw [Bool.eq_false_iff.2 h.1]
      simp only [report, logOutput, Log.Output.setup, hload]
      rfl

/-- What is listed depends on the features of a world and on nothing else in
it. -/
theorem perform_listAccessors_congr (h : w'.features = w.features)
    (debug debug' : Bool) :
    perform w' (.listAccessors debug') = perform w (.listAccessors debug) := by
  simp only [perform, printAccessors, featureData, h]

theorem sameResult_of_startsListing (hfeatures : w'.features = w.features)
    (h : StartsListing w.environment debug)
    (h' : StartsListing w'.environment debug')
    (milliseconds milliseconds' : Int) :
    SameResult (report w milliseconds (.listAccessors debug))
      (report w' milliseconds' (.listAccessors debug')) := by
  rcases report_of_startsListing h with ⟨out, hreport⟩
  rcases report_of_startsListing h' with ⟨out', hreport'⟩
  rw [hreport, hreport', perform_listAccessors_congr hfeatures debug debug']
  exact sameResult_reportOf out out' milliseconds milliseconds' _

theorem lists_builtin : Lists .builtin Context.standard :=
  ⟨_, _, rfl⟩

def standardListing : String :=
  "Registered index accessors:\n" ++
    "  JsonIndexAccessor              [ArrayNode] Reads indexes from JSON arrays\n"

theorem perform_builtin (hfeatures : w.features = .builtin) (debug : Bool) :
    (perform w (.listAccessors debug)).outcome = .ok () ∧
      (perform w (.listAccessors debug)).output = standardListing := by
  rw [perform_of_lists (hfeatures ▸ lists_builtin) debug]
  exact ⟨rfl, by decide +kernel⟩

theorem report_builtin_of_startsListing (hfeatures : w.features = .builtin)
    (h : StartsListing w.environment debug) (milliseconds : Int) :
    (report w milliseconds (.listAccessors debug)).exitCode = 0 ∧
      (report w milliseconds (.listAccessors debug)).output =
        standardListing := by
  rcases report_of_startsListing h with ⟨out, hreport⟩
  rcases perform_builtin hfeatures debug with ⟨houtcome, houtput⟩
  rw [hreport, reportOf_of_ok out houtcome]
  exact ⟨rfl, houtput⟩

end Settings

/-- Once it starts, the listing command has the same exit code and the same
output in every environment, with the flag for debugging and without it.  The
settings keep it from starting if one of them is bad and the flag is not given,
and it ends with code one and no output then. -/
theorem listing_ignores_settings_once_started (w w' : World)
    (hfeatures : w'.features = w.features) (debug debug' : Bool)
    (time time' : Int) :
    (StartsListing w.environment debug → StartsListing w'.environment debug' →
      ∃ r r', report? w time (listArguments debug) = some r ∧
        report? w' time' (listArguments debug') = some r' ∧ SameResult r r') ∧
    (w.features = .builtin → StartsListing w.environment debug →
      ∃ r, report? w time (listArguments debug) = some r ∧
        r.exitCode = 0 ∧ r.output = standardListing) ∧
    (¬StartsListing w.environment debug →
      ∃ failure, Settings.load w.environment = .error failure ∧
        report? w time (listArguments debug) =
          some ⟨1, "", "", some failure⟩) := by
  rw [report?_listArguments, report?_listArguments]
  constructor
  · intro h h'
    exact ⟨_, _, rfl, rfl,
      sameResult_of_startsListing hfeatures h h' time time'⟩
  constructor
  · intro hbuiltin h
    exact ⟨_, rfl, report_builtin_of_startsListing hbuiltin h time⟩
  · intro h
    rcases report_of_not_startsListing h with ⟨failure, hload, hreport⟩
    exact ⟨failure, hload, congrArg some (hreport time)⟩

/-- A numeral asks for more records than the flag does, and an indent that is
no number makes no difference beside the flag. -/
theorem listing_ignores_settings_of_two_environments :
    let w := World.onInput [(Settings.levelVariable, "5")] ""
    let w' := World.onInput [(Settings.indentVariable, "wide")] ""
    w'.features = w.features ∧ StartsListing w.environment false ∧
      StartsListing w'.environment true ∧
      ∃ r r', report? w 0 ["list-accessors"] = some r ∧
        report? w' 7 ["list-accessors", "--debug"] = some r' ∧
        SameResult r r' := by
  intro w w'
  have hload : Settings.load w.environment = .ok ⟨5, some 2⟩ := by cbv
  have hstarts : StartsListing w.environment false := .inr ⟨_, hload⟩
  have hstarts' : StartsListing w'.environment true := .inl rfl
  exact ⟨rfl, hstarts, hstarts',
    (listing_ignores_settings_once_started w w' rfl false true 0 7).1
      hstarts hstarts'⟩

/-- An indent that is no number ends the listing command, which does not use
it. -/
theorem listing_fails_for_bad_indent :
    let w := World.onInput [] ""
    let w' := World.onInput [(Settings.indentVariable, "wide")] ""
    w'.features = w.features ∧
      (report? w 0 ["list-accessors"]).map (·.exitCode) = some 0 ∧
      (report? w 0 ["list-accessors"]).map (·.output) = some standardListing ∧
      (report? w' 0 ["list-accessors"]).map (·.exitCode) = some 1 ∧
      (report? w' 0 ["list-accessors"]).map (·.output) = some "" ∧
      (report? w' 0 ["list-accessors", "--debug"]).map (·.exitCode) =
        some 0 := by
  intro w w'
  refine ⟨rfl, ?_, ?_, ?_, ?_, ?_⟩ <;> decide +kernel

end CommandLine
end IndexAccess
