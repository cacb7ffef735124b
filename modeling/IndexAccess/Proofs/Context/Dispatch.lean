import IndexAccess.Accessor.Scripted
import IndexAccess.Context
import IndexAccess.Proofs.Outcome

/-!
# Dispatch to the first willing accessor

Reading and writing an index are two instances of one procedure: accessors are
asked in order until one agrees, and that one alone acts.  The run of the
procedure is computed here for every list of accessors, with all the calls that
it makes, and then carried over to both instances.
-/

namespace IndexAccess
namespace Context

/-- What is asked of accessors and what the one that agrees is let do. -/
structure Trial (α : Type) where
  willing : Accessor → Bool
  question : Request
  action : Request
  notice : Accessor → String
  act : Accessor → Run α
  passOn : Failure → Failure
  refuse : Run α

namespace Trial

variable {α : Type} (t : Trial α)

def run : List Accessor → Run α
  | [] => t.refuse
  | a :: rest => do
    Run.note a.identity t.question
    if t.willing a then
      Run.debug (t.notice a)
      Run.note a.identity t.action
      (t.act a).recover fun failure => .error (t.passOn failure)
    else run rest

def asked (a : Accessor) : Event :=
  .called a.identity t.question

/-- The outcome of an action as the host gives it. -/
def settle (outcome : Except Failure α) : Except Failure α :=
  outcome.mapError t.passOn

theorem run_cons_of_willing {a : Accessor} (rest : List Accessor)
    (ha : t.willing a = true) :
    t.run (a :: rest) =
      ⟨t.asked a :: .logged ⟨Log.Level.debug, t.notice a⟩ ::
          .called a.identity t.action :: (t.act a).events,
        t.settle (t.act a).outcome⟩ := by
  rw [run, Run.note_bind, if_pos ha, Run.debug_bind, Run.note_bind,
    Run.recover_events]
  cases hact : (t.act a).outcome with
  | ok result => rw [Run.recover_ok _ hact, hact]; rfl
  | error failure => rw [Run.recover_error _ hact]; rfl

theorem run_cons_of_unwilling {a : Accessor} (rest : List Accessor)
    (ha : t.willing a = false) :
    t.run (a :: rest) = ⟨t.asked a :: (t.run rest).events,
      (t.run rest).outcome⟩ := by
  rw [run, Run.note_bind, ha]
  rfl

/-- Unwilling accessors in front are asked once each and change nothing
else. -/
theorem run_append_of_unwilling {before : List Accessor} (rest : List Accessor)
    (hbefore : ∀ b ∈ before, t.willing b = false) :
    t.run (before ++ rest) =
      ⟨before.map t.asked ++ (t.run rest).events, (t.run rest).outcome⟩ := by
  induction before with
  | nil => rfl
  | cons b before ih =>
      have htail := ih fun other hother =>
        hbefore other (List.mem_cons_of_mem b hother)
      rw [List.cons_append,
        t.run_cons_of_unwilling _ (hbefore b (by simp)), htail]
      rfl

theorem run_of_unwilling {accessors : List Accessor}
    (h : ∀ a ∈ accessors, t.willing a = false) :
    t.run accessors =
      ⟨accessors.map t.asked ++ t.refuse.events, t.refuse.outcome⟩ := by
  simpa [run] using t.run_append_of_unwilling [] h

/-- The calls that are made up to and by the first willing accessor. -/
theorem calls_of_first {before : List Accessor} {a : Accessor}
    (after : List Accessor) (hbefore : ∀ b ∈ before, t.willing b = false)
    (ha : t.willing a = true) :
    (t.run (before ++ a :: after)).calls =
      before.map (fun b => (b.identity, t.question)) ++
        (a.identity, t.question) :: (a.identity, t.action) ::
          (t.act a).calls := by
  rw [t.run_append_of_unwilling _ hbefore, t.run_cons_of_willing after ha]
  simp [Run.calls, asked, Function.comp_def]

theorem outcome_of_first {before : List Accessor} {a : Accessor}
    (after : List Accessor) (hbefore : ∀ b ∈ before, t.willing b = false)
    (ha : t.willing a = true) :
    (t.run (before ++ a :: after)).outcome = t.settle (t.act a).outcome := by
  rw [t.run_append_of_unwilling _ hbefore, t.run_cons_of_willing after ha]

theorem calls_of_unwilling {accessors : List Accessor}
    (h : ∀ a ∈ accessors, t.willing a = false)
    (hrefuse : t.refuse.events = []) :
    (t.run accessors).calls = accessors.map fun a =>
      (a.identity, t.question) := by
  rw [t.run_of_unwilling h, hrefuse]
  simp [Run.calls, asked, Function.comp_def]

/-- Two procedures that tell the willing apart in the same way, and let them do
what comes to the same, come to the same. -/
theorem outcome_congr {t t' : Trial α} {accessors : List Accessor}
    (hwilling : ∀ a ∈ accessors, t.willing a = t'.willing a)
    (hact : ∀ a ∈ accessors, (t.act a).outcome = (t'.act a).outcome)
    (hpassOn : t.passOn = t'.passOn) (hrefuse : t.refuse = t'.refuse) :
    (t.run accessors).outcome = (t'.run accessors).outcome := by
  induction accessors with
  | nil => exact congrArg Run.outcome hrefuse
  | cons a rest ih =>
      have hsame := hwilling a List.mem_cons_self
      by_cases ha : t.willing a = true
      · rw [t.run_cons_of_willing rest ha,
          t'.run_cons_of_willing rest (hsame ▸ ha)]
        simp only [settle, hact a List.mem_cons_self, hpassOn]
      · have hunwilling := Bool.eq_false_iff.2 ha
        rw [t.run_cons_of_unwilling rest hunwilling,
          t'.run_cons_of_unwilling rest (hsame ▸ hunwilling)]
        exact ih (fun b hb => hwilling b (List.mem_cons_of_mem a hb))
          fun b hb => hact b (List.mem_cons_of_mem a hb)

end Trial

def reading (host : Host) (target index : Value) : Trial TypedValue where
  willing a := a.canRead host target index
  question := .canRead
  action := .read
  notice a := s!"Reading index {index.shown} with {a.name}"
  act a := a.read host target index
  passOn := Context.passOn target index .notReadable
  refuse := refuseAll target index .notReadable

def writing (host : Host) (target index value : Value) : Trial Unit where
  willing a := a.canWrite host target index
  question := .canWrite
  action := .write target index value
  notice a := s!"Writing index {index.shown} with {a.name}"
  act a := a.write host target index value
  passOn := Context.passOn target index .notWritable
  refuse := refuseAll target index .notWritable

theorem readIndex_eq_run (c : Context) (target index : Value) :
    c.readIndex target index =
      (reading c.host target index).run
        (c.registry.candidates target.classOf) := by
  unfold readIndex
  generalize c.registry.candidates target.classOf = accessors
  induction accessors with
  | nil => rfl
  | cons a rest ih => rw [readWith, Trial.run, ih]; rfl

theorem writeIndex_eq_run (c : Context) (target index value : Value) :
    c.writeIndex target index value =
      (writing c.host target index value).run
        (c.registry.candidates target.classOf) := by
  unfold writeIndex
  generalize c.registry.candidates target.classOf = accessors
  induction accessors with
  | nil => rfl
  | cons a rest ih => rw [writeWith, Trial.run, ih]; rfl

/-! ## The outcome that is passed on -/

section Outcomes

variable {α : Type} {target index : Value} {shown : String}

/-- The outcome of an accessor as the host passes it on: an inaccessible index
is refused with the reason and the cause, and everything else goes through. -/
def passedOn (target index : Value) (shown : String) (refuse : RefusalKind) :
    Except Failure α → Except Failure α
  | .error (.index (.inaccessible reason)) =>
    .error (.index (refuse ⟨target.classOf, index, shown, some reason⟩
      (some (.inaccessible reason))))
  | outcome => outcome

theorem mapError_passOn (hshown : index.display = .ok shown)
    (refuse : RefusalKind) (outcome : Except Failure α) :
    outcome.mapError (passOn target index refuse) =
      passedOn target index shown refuse outcome := by
  have hrefusal : ∀ reason,
      refusal target index reason =
        .ok ⟨target.classOf, index, shown, reason⟩ := by
    intro reason
    simp only [refusal, hshown]
    rfl
  cases outcome with
  | ok result => rfl
  | error failure =>
      cases failure with
      | index failure =>
          cases failure <;> simp [Except.mapError, passOn, passedOn, hrefusal]
      | _ => rfl

theorem refuseAll_of_display (hshown : index.display = .ok shown)
    (refuse : RefusalKind) :
    (refuseAll target index refuse : Run α) =
      .fail (.index (refuse ⟨target.classOf, index, shown, none⟩ none)) := by
  simp only [refuseAll, refusal, hshown]
  rfl

end Outcomes

/-- The text of a refusal: what cannot be done, and a reason that is not
empty. -/
def refusalText (verb typeName shown : String)
    (reason : Option String) : String :=
  s!"Index [{shown}] cannot be {verb} on object of type '{typeName}'" ++
    match reason with
    | none => ""
    | some reason => if reason.isEmpty then "" else ": " ++ reason

theorem refusal_message (verb : String) (r : Refusal) :
    r.message verb = refusalText verb r.target.name r.shownIndex r.reason := by
  unfold Refusal.message refusalText
  cases r.reason with
  | none => simp
  | some reason =>
      by_cases h : reason.isEmpty <;> simp [h, String.append_assoc]

/-- The first willing accessor decides, for reading and for writing: those
before it are asked once each in order, it is asked and then acts once, nobody
else is called, and its outcome is passed on, an inaccessible index as a
refusal that keeps the failure as its cause and reason.  Where nobody is
willing everybody is asked once in order, nobody acts, and the index is refused
without a cause. -/
theorem first_willing_decides (c : Context) (target index : Value)
    (shown : String) (hshown : index.display = .ok shown) :
    (∀ (before : List Accessor) (a : Accessor) (after : List Accessor),
      c.registry.candidates target.classOf = before ++ a :: after →
      (∀ b ∈ before, b.canRead c.host target index = false) →
      a.canRead c.host target index = true →
      (c.readIndex target index).calls =
          before.map (fun b => (b.identity, Request.canRead)) ++
            (a.identity, .canRead) :: (a.identity, .read) ::
              (a.read c.host target index).calls ∧
        (c.readIndex target index).outcome =
          passedOn target index shown .notReadable
            (a.read c.host target index).outcome) ∧
    ((∀ a ∈ c.registry.candidates target.classOf,
        a.canRead c.host target index = false) →
      (c.readIndex target index).calls =
          (c.registry.candidates target.classOf).map (fun a =>
            (a.identity, Request.canRead)) ∧
        (c.readIndex target index).outcome =
          .error (.index (.notReadable ⟨target.classOf, index, shown,
            none⟩ none))) ∧
    (∀ (value : Value) (before : List Accessor) (a : Accessor)
      (after : List Accessor),
        c.registry.candidates target.classOf = before ++ a :: after →
      (∀ b ∈ before, b.canWrite c.host target index = false) →
      a.canWrite c.host target index = true →
      (c.writeIndex target index value).calls =
          before.map (fun b => (b.identity, Request.canWrite)) ++
            (a.identity, .canWrite) ::
              (a.identity, .write target index value) ::
              (a.write c.host target index value).calls ∧
        (c.writeIndex target index value).outcome =
          passedOn target index shown .notWritable
            (a.write c.host target index value).outcome) ∧
    (∀ value : Value,
      (∀ a ∈ c.registry.candidates target.classOf,
        a.canWrite c.host target index = false) →
      (c.writeIndex target index value).calls =
          (c.registry.candidates target.classOf).map (fun a =>
            (a.identity, Request.canWrite)) ∧
        (c.writeIndex target index value).outcome =
          .error (.index (.notWritable ⟨target.classOf, index, shown,
            none⟩ none))) ∧
    ∀ (reason : Option String) (cause : Option IndexFailure),
      let refused : Refusal := ⟨target.classOf, index, shown, reason⟩
      (IndexFailure.notReadable refused cause).cause? = cause ∧
        (IndexFailure.notWritable refused cause).cause? = cause ∧
        (IndexFailure.notReadable refused cause).message =
          refusalText "read" target.classOf.name shown reason ∧
        (IndexFailure.notWritable refused cause).message =
          refusalText "written" target.classOf.name shown reason := by
  refine ⟨?_, ?_, ?_, ?_, ?_⟩
  · intro before a after hcandidates hbefore ha
    rw [readIndex_eq_run, hcandidates]
    refine ⟨Trial.calls_of_first _ after hbefore ha, ?_⟩
    rw [Trial.outcome_of_first _ after hbefore ha]
    exact mapError_passOn hshown .notReadable _
  · intro hnone
    rw [readIndex_eq_run]
    refine ⟨Trial.calls_of_unwilling _ hnone rfl, ?_⟩
    rw [Trial.run_of_unwilling _ hnone]
    exact congrArg Run.outcome (refuseAll_of_display hshown .notReadable)
  · intro value before a after hcandidates hbefore ha
    rw [writeIndex_eq_run, hcandidates]
    refine ⟨Trial.calls_of_first _ after hbefore ha, ?_⟩
    rw [Trial.outcome_of_first _ after hbefore ha]
    exact mapError_passOn hshown .notWritable _
  · intro value hnone
    rw [writeIndex_eq_run]
    refine ⟨Trial.calls_of_unwilling _ hnone rfl, ?_⟩
    rw [Trial.run_of_unwilling _ hnone]
    exact congrArg Run.outcome (refuseAll_of_display hshown .notWritable)
  · intro reason cause
    exact ⟨rfl, rfl, refusal_message "read" _, refusal_message "written" _⟩

/-- A declining accessor, one that agrees and fails, and one that would have
succeeded: the failure of the second stands. -/
theorem first_willing_decides_though_it_fails :
    let declining := Script.accessor
      ⟨"Declining", none, [], .never, .never, .null, .accepts⟩
        (.declared "a") []
    let failing := Script.accessor
      ⟨"Failing", none, [], .texts, .never, .fails (.inaccessible "closed"),
        .accepts⟩
      (.declared "b") []
    let fallback := Script.accessor
      ⟨"Fallback", none, [], .always, .never, .index, .accepts⟩
        (.declared "c") []
    let c : Context := ⟨⟨[declining, failing, fallback]⟩, []⟩
    (Value.text "first").display = .ok (Text.quoted "first") ∧
      (c.readIndex .null (.text "first")).calls =
        [(.declared "a", .canRead), (.declared "b", .canRead),
          (.declared "b", .read)] ∧
      (c.readIndex .null (.text "first")).outcome =
        .error (.index (.notReadable
          ⟨.none, .text "first", Text.quoted "first", some "closed"⟩
          (some (.inaccessible "closed")))) := by
  intro declining failing fallback c
  have hshown : (Value.text "first").display = .ok (Text.quoted "first") := rfl
  have hbefore : ∀ b ∈ [declining],
      b.canRead c.host .null (.text "first") = false := by
    intro b hb
    rw [List.mem_singleton.1 hb]
    rfl
  have hread := (first_willing_decides c .null (.text "first") _ hshown).1
    [declining] failing [fallback] rfl hbefore rfl
  exact ⟨hshown, hread⟩

end Context
end IndexAccess
