import IndexAccess.Feature.Builtin
import IndexAccess.Feature.Session
import IndexAccess.Proofs.Entries

/-!
# Features over whole sessions

Whatever is done in a session, its registry holds what was registered in it:
every name once, at the place of its first registration and with the feature
that was registered last.  A dictionary that is handed out lives at a place
where none has lived before, so that a change of it never reaches the registry,
however late it comes.

One invariant carries both: the registry is found at a place where no
dictionary was handed out.  It is carried over one step at a time.  Sessions in
which the same was registered are then answered alike, be there lookups,
failures and changes of listings in one of them or not.
-/

namespace IndexAccess

open Entries

namespace FeatureRegistry

variable (r : FeatureRegistry) (name : String)

theorem require_exits_iff :
    (r.require name).outcome = .error (.exit 1) ↔ r.get? name = none := by
  unfold require
  cases r.get? name with
  | none => exact ⟨fun _ => rfl, fun _ => rfl⟩
  | some feature => exact ⟨nofun, nofun⟩

theorem require_outcome_ok_iff (feature : Feature) :
    (r.require name).outcome = .ok feature ↔ r.get? name = some feature := by
  unfold require
  cases r.get? name with
  | none => exact ⟨nofun, nofun⟩
  | some found =>
      constructor
      · exact fun h => congrArg some (Except.ok.inj h)
      · exact fun h => congrArg Except.ok (Option.some.inj h)

theorem builtin_names :
    builtin.features.map (·.name) =
      ["version", "read", "list-accessors"] := rfl

end FeatureRegistry

/-! ## What is registered -/

section Registrations

def Feature.entry (feature : Feature) : String × Feature :=
  (feature.name, feature)

def FeatureStep.registration? : FeatureStep → Option Feature
  | register feature => some feature
  | _ => none

def registrations (steps : List FeatureStep) : List Feature :=
  steps.filterMap FeatureStep.registration?

/-- Whether a feature is the one that was registered last under a name. -/
def RegisteredLast (registered : List Feature) (name : String)
    (feature : Feature) : Prop :=
  ∃ earlier later, registered = earlier ++ feature :: later ∧
    feature.name = name ∧
    ∀ other ∈ later, other.name ≠ name

theorem lastPut_entry_iff {registered : List Feature} {name : String}
    {feature : Feature} :
    LastPut (registered.map Feature.entry) name feature ↔
      RegisteredLast registered name feature := by
  rw [lastPut_map_iff]
  constructor
  · rintro ⟨earlier, found, later, heq, hentry, hlater⟩
    rcases Prod.mk.inj hentry with ⟨hname, rfl⟩
    exact ⟨earlier, later, heq, hname, hlater⟩
  · rintro ⟨earlier, later, heq, rfl, hlater⟩
    exact ⟨earlier, feature, later, heq, rfl, hlater⟩

theorem keys_map_entry (registered : List Feature) :
    keys (registered.map Feature.entry) = registered.map (·.name) :=
  List.map_map

theorem registration?_eq_some_iff {st : FeatureStep} {feature : Feature} :
    st.registration? = some feature ↔ st = .register feature := by
  cases st <;> simp [FeatureStep.registration?]

theorem registrations_cons (st : FeatureStep) (rest : List FeatureStep) :
    registrations (st :: rest) =
      st.registration?.toList ++ registrations rest := by
  unfold registrations
  cases hst : st.registration? <;> simp [hst]

theorem registrations_filter (steps : List FeatureStep) :
    registrations (steps.filter (·.registration?.isSome)) =
      registrations steps := by
  have hkept (st : FeatureStep) :
      (if st.registration?.isSome then st.registration? else none) =
        st.registration? := by
    cases st.registration? <;> rfl
  unfold registrations
  rw [List.filterMap_filter]
  exact congrArg (List.filterMap · steps) (funext hkept)

end Registrations

namespace FeatureSession

/-- That the registry of a session holds what was registered, at a place where
no dictionary was handed out. -/
structure HoldsRegistered (s : FeatureSession)
    (registered : List Feature) : Prop where
  kept : s.dictionaries[s.registryPlace]? =
    some (ofList (registered.map Feature.entry))
  apart : s.registryPlace ∉ s.handedOut

theorem listing_eq (s : FeatureSession) :
    s.listing = s.dictionary s.registryPlace := by
  have hplace : (s.dictionaries ++
      [s.dictionary s.registryPlace])[s.dictionaries.length]? =
      some (s.dictionary s.registryPlace) :=
    List.getElem?_concat_length
  exact congrArg (·.getD []) hplace

theorem builtin_holdsRegistered :
    HoldsRegistered (start .builtin) FeatureRegistry.builtin.features := by
  have hkeys : (keys FeatureRegistry.builtin.entries).Nodup := by decide
  have hentries : FeatureRegistry.builtin.features.map Feature.entry =
      FeatureRegistry.builtin.entries := rfl
  constructor
  · rw [hentries, ofList_of_nodup hkeys]
    rfl
  · exact List.not_mem_nil

namespace HoldsRegistered

variable {s s' : FeatureSession} {registered : List Feature}

/-! ## One step -/

section Steps

variable (h : HoldsRegistered s registered)
include h

theorem registry_eq : s.registry =
    ⟨ofList (registered.map Feature.entry)⟩ := by
  rw [registry, dictionary, h.kept, Option.getD_some]

theorem listing_eq : s.listing = ofList (registered.map Feature.entry) := by
  rw [FeatureSession.listing_eq, dictionary, h.kept, Option.getD_some]

theorem changeAt {place : Nat} (hplace : place ≠ s.registryPlace)
    (change : FeatureDictionary → FeatureDictionary) :
    HoldsRegistered (s.changeAt place change) registered := by
  constructor
  · have hother := List.getElem?_modify_ne change s.dictionaries hplace
    exact hother.trans h.kept
  · exact h.apart

theorem register (feature : Feature) :
    HoldsRegistered (s.register feature) (registered ++ [feature]) := by
  constructor
  · rw [FeatureSession.register, FeatureSession.changeAt,
      List.getElem?_modify_eq, h.kept, List.map_append, List.map_singleton,
      ofList_concat]
    rfl
  · exact h.apart

theorem handOut : HoldsRegistered s.handOut.1 registered := by
  -- The new place is past all dictionaries that there are, and the registry is
  -- one of them.
  have hlt : s.registryPlace < s.dictionaries.length :=
    (List.getElem?_eq_some_iff.1 h.kept).1
  constructor
  · rw [FeatureSession.handOut, List.getElem?_append_left hlt]
    exact h.kept
  · intro hmem
    rcases List.mem_append.1 hmem with hold | hnew
    · exact h.apart hold
    · exact Nat.ne_of_lt hlt (List.mem_singleton.1 hnew)

theorem changeHandedOut (number : Nat)
    (change : FeatureDictionary → FeatureDictionary) :
    HoldsRegistered (s.changeHandedOut number change) registered := by
  unfold FeatureSession.changeHandedOut
  split
  next place hplace =>
    have hmem : place ∈ s.handedOut := List.mem_of_getElem? hplace
    exact h.changeAt (fun heq => h.apart (heq ▸ hmem)) change
  next => exact h

theorem step_of_idle {st : FeatureStep} (hst : st.registration? = none) :
    HoldsRegistered (s.step st).1 registered := by
  cases st with
  | register feature => cases hst
  | list => exact h.handOut
  | clearListing => exact (h.handOut.changeHandedOut _ _).handOut
  | changeListing number change =>
      exact (h.changeHandedOut number change).handOut
  | get | call | callForData | require => exact h

/-- A step adds what it registers, and changes nothing else. -/
theorem step (st : FeatureStep) :
    HoldsRegistered (s.step st).1 (registered ++ st.registration?.toList) := by
  cases hst : st.registration? with
  | none =>
      rw [Option.toList_none, List.append_nil]
      exact h.step_of_idle hst
  | some feature =>
      rw [registration?_eq_some_iff.1 hst]
      exact (h.register feature).handOut

end Steps

theorem after (h : HoldsRegistered s registered) (steps : List FeatureStep) :
    HoldsRegistered (s.after steps) (registered ++ registrations steps) := by
  induction steps generalizing s registered with
  | nil =>
      rw [registrations, List.filterMap_nil, List.append_nil]
      exact h
  | cons st rest ih =>
      rw [registrations_cons, ← List.append_assoc]
      exact ih (h.step st)

/-! ## Answers after any steps -/

section Answers

variable (h : HoldsRegistered s registered)
  (h' : HoldsRegistered s' registered)
include h h'

theorem list_eq : s.list.2 = s'.list.2 := by
  rw [FeatureSession.list, FeatureSession.list, h.listing_eq, h'.listing_eq]

/-- What was registered decides the answer to a step. -/
theorem answer_eq (st : FeatureStep) : (s.step st).2 = (s'.step st).2 := by
  cases st with
  | register feature =>
      have hlist := list_eq (h.register feature) (h'.register feature)
      simp only [FeatureSession.step, hlist]
  | list =>
      have hlist := list_eq h h'
      simp only [FeatureSession.step, hlist]
  | clearListing =>
      have hlist := list_eq
        (h.handOut.changeHandedOut s.handedOut.length fun _ => [])
        (h'.handOut.changeHandedOut s'.handedOut.length fun _ => [])
      simp only [FeatureSession.step, hlist]
  | changeListing number change =>
      have hlist := list_eq (h.changeHandedOut number change)
        (h'.changeHandedOut number change)
      simp only [FeatureSession.step, hlist]
  | get | call | callForData =>
      have hregistry : s.registry = s'.registry := by
        rw [h.registry_eq, h'.registry_eq]
      simp only [FeatureSession.step, hregistry]
  | require => rfl

theorem runSteps_eq (steps : List FeatureStep) :
    s.runSteps steps = s'.runSteps steps := by
  induction steps generalizing s s' registered with
  | nil => rfl
  | cons st rest ih =>
      have hanswer := answer_eq h h' st
      have hrest := ih (h.step st) (h'.step st)
      rw [runSteps, runSteps, hanswer, hrest]

end Answers

end HoldsRegistered

/-- After any steps of a session that starts with the features of the program,
a listing has every name that was ever registered once, those of the program
first and the others in the order of their first registration, each with the
feature that was registered last.  Looking a name up gives what the listing
has, and nothing for a name that was never registered; where a feature is
needed, the program ends with code one for exactly these names.  All answers
from then on are those that follow on the registrations alone. -/
theorem listing_follows_registrations (steps : List FeatureStep) :
    let s := (start .builtin).after steps
    let names := ["version", "read", "list-accessors"]
    let registered := FeatureRegistry.builtin.features ++ registrations steps
    (keys s.listing).Nodup ∧
    keys s.listing =
      names ++ (((registrations steps).map (·.name)).removeAll
        names).eraseDups ∧
    (∀ name feature, (name, feature) ∈ s.listing ↔
      RegisteredLast registered name feature) ∧
    (∀ name feature, s.registry.get? name = some feature ↔
      (name, feature) ∈ s.listing) ∧
    (∀ name, s.registry.get? name = none ↔ name ∉ registered.map (·.name)) ∧
    (∀ name,
      ((s.registry.require name).outcome = .error (.exit 1) ↔
        s.registry.get? name = none) ∧
      ∀ feature, (s.registry.require name).outcome = .ok feature ↔
        s.registry.get? name = some feature) ∧
    ∀ later, s.runSteps later =
      ((start .builtin).after (steps.filter (·.registration?.isSome))).runSteps
        later := by
  intro s names registered
  have h : HoldsRegistered s registered := builtin_holdsRegistered.after steps
  have hget (name : String) :
      s.registry.get? name =
        get? (ofList (registered.map Feature.entry)) name := by
    rw [h.registry_eq, FeatureRegistry.get?]
  refine ⟨?_, ?_, ?_, ?_, ?_, ?_, ?_⟩
  · rw [h.listing_eq]
    exact nodup_keys_ofList _
  · have hnames : names.eraseDups = names := by decide
    rw [h.listing_eq, keys_ofList, keys_map_entry, List.map_append,
      FeatureRegistry.builtin_names, List.eraseDups_append, hnames]
  · intro name feature
    rw [h.listing_eq, mem_ofList_iff, lastPut_entry_iff]
  · intro name feature
    rw [h.listing_eq, hget, mem_ofList_iff, get?_ofList_eq_some_iff]
  · intro name
    rw [hget, get?_ofList_eq_none_iff, keys_map_entry]
  · intro name
    exact ⟨s.registry.require_exits_iff name,
      s.registry.require_outcome_ok_iff name⟩
  · intro later
    have h' := builtin_holdsRegistered.after
      (steps.filter (·.registration?.isSome))
    rw [registrations_filter] at h'
    exact h.runSteps_eq h' later

/-- A listing is kept while a feature is added and another one replaced, and
cleared afterwards; then a call ends the program, one fails, and one names no
feature. -/
theorem listing_follows_registrations_past_cleared_copy :
    let echo : Feature := ⟨"echo", "Says no", fun _ => pure (.fail "no")⟩
    let leave : Feature :=
      ⟨"read", "Ends the program", fun _ => .fail (.exit 3)⟩
    let steps : List FeatureStep := [.list, .register echo, .register leave,
      .changeListing 0 fun _ => [], .call "read" (.ok none),
      .callForData "echo" (.ok none), .call "write" (.ok none)]
    let s := (start .builtin).after steps
    keys s.listing = ["version", "read", "list-accessors", "echo"] ∧
      s.registry.get? "read" = some leave ∧
      (s.registry.require "write").outcome = .error (.exit 1) ∧
      s.runSteps [.list] =
        ((start .builtin).after [.register echo, .register leave]).runSteps
          [.list] := by
  intro echo leave steps s
  rcases listing_follows_registrations steps with
    ⟨-, hkeys, hlast, hget, hnone, hrequire, hlater⟩
  have hread : RegisteredLast
      (FeatureRegistry.builtin.features ++ registrations steps) "read" leave :=
    ⟨FeatureRegistry.builtin.features ++ [echo], [], rfl, rfl, by simp⟩
  refine ⟨?_, ?_, ?_, hlater [.list]⟩
  · exact hkeys.trans (by decide)
  · exact (hget "read" leave).2 ((hlast "read" leave).2 hread)
  · exact (hrequire "write").1.2 ((hnone "write").2 (by decide))

end FeatureSession
end IndexAccess
