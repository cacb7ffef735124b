import IndexAccess.Feature.Builtin
import IndexAccess.Proofs.Context.Standard
import IndexAccess.Proofs.Node.Offenders

/-!
# Invariants of runs

Reading a document logs for debugging, notes calls of accessors, and fails
without choosing an exit code; it does nothing else.  A property of runs that
these parts have and that goes from the parts of a run to the whole therefore
holds of the reading of every document in a standard context.  The operations
that reading is made of are gone through once, for all such properties.
-/

namespace IndexAccess

/-- The exit code of a program that ends with a failure. -/
def Failure.exitCode : Failure → Nat
  | exit code => code
  | _ => 1

/-- No failure of an outcome chooses another exit code than one. -/
def ExitsWithOne {α : Type} (outcome : Except Failure α) : Prop :=
  ∀ failure, outcome = .error failure → failure.exitCode = 1

namespace ExitsWithOne

variable {α β : Type}

theorem ok (a : α) : ExitsWithOne (.ok a : Except Failure α) :=
  fun _ h => nomatch h

theorem error {failure : Failure} (h : failure.exitCode = 1) :
    ExitsWithOne (.error failure : Except Failure α) := by
  intro other heq
  obtain rfl := Except.error.inj heq
  exact h

theorem bind {outcome : Except Failure α} {next : α → Except Failure β}
    (houtcome : ExitsWithOne outcome) (hnext : ∀ a, ExitsWithOne (next a)) :
    ExitsWithOne (outcome >>= next) := by
  cases outcome with
  | ok a => exact hnext a
  | error failure => exact error (houtcome failure rfl)

end ExitsWithOne

/-! ## Failures that exit -/

section Outcomes

theorem exitsWithOne_display (v : Value) : ExitsWithOne v.display := by
  unfold Value.display
  split
  next => exact .ok _
  next => exact .error rfl

theorem exitsWithOne_refusal (target index : Value) (reason : Option String) :
    ExitsWithOne (Context.refusal target index reason) :=
  (exitsWithOne_display index).bind fun _ => .ok _

theorem exitsWithOne_passOn (target index : Value)
    (refuse : RefusalKind)
    {failure : Failure} (h : failure.exitCode = 1) :
    (Context.passOn target index refuse failure).exitCode = 1 := by
  unfold Context.passOn
  split
  next reason =>
    have hrefusal := exitsWithOne_refusal target index (some reason)
    split
    next => rfl
    next other heq => exact hrefusal other heq
  next => exact h

theorem exitsWithOne_integerOfText (t : Text) :
    ExitsWithOne (Value.integerOfText t) := by
  unfold Value.integerOfText Value.integerOutcome
  split
  next => exact .ok _
  next => exact .error rfl
  next => exact .error rfl

theorem exitsWithOne_indexOfDigits (t : Text) :
    ExitsWithOne (ArrayElement.indexOfDigits t) := by
  unfold ArrayElement.indexOfDigits
  dsimp only
  split
  next => exact .error rfl
  next =>
    refine (exitsWithOne_integerOfText _).bind fun index => ?_
    split
    next => exact .error rfl
    next => exact .ok _

theorem exitsWithOne_integerIndex (index : Value) :
    ExitsWithOne (ArrayElement.integerIndex index) := by
  have hrefuse : ∀ v, ExitsWithOne (ArrayElement.integerIndex.refuse v) :=
    fun v => (exitsWithOne_display v).bind fun _ => .error rfl
  unfold ArrayElement.integerIndex
  split
  next => exact .ok _
  next =>
    split
    next t =>
      split
      next =>
        exact exitsWithOne_indexOfDigits _
      next => exact hrefuse _
    next => exact hrefuse _

theorem exitsWithOne_ofValue (v : Value) : ExitsWithOne (Node.ofValue v) := by
  rcases Node.ofValue_cases v with ⟨-, n, hn⟩ | ⟨first, later, -, herror⟩
  · rw [hn]
    exact .ok n
  · rw [herror]
    rcases first.failure_cases with
      ⟨fault, hfault⟩ | ⟨key, obstacle, -, -, hfailure⟩
    · exact .error (by rw [hfault]; rfl)
    · exact .error (by rw [hfailure]; rfl)

end Outcomes

namespace Run

/-! ## Invariants of runs -/

/-- A property of runs that holds of the parts of reading and goes over to what
is made of them: it says nothing about records below debugging, about what is
printed, and about other exit codes. -/
structure Invariant (P : (α : Type) → Run α → Prop) : Prop where
  ofExcept {α : Type} {outcome : Except Failure α} (h : ExitsWithOne outcome) :
    P α (ofExcept outcome)
  log {level : Nat} (h : Log.Level.debug ≤ level) (text : String) : P Unit
    (log level text)
  note (accessor : Identity) (request : Request) : P Unit
    (note accessor request)
  bind {α β : Type} {run : Run α} {next : α → Run β} (hrun : P α run)
    (hnext : ∀ a, run.outcome = .ok a → P β (next a)) : P β (run >>= next)
  settle {α β : Type} {run : Run α} {outcome : Except Failure β}
    (hrun : P α run)
    (houtcome : ExitsWithOne run.outcome → ExitsWithOne outcome) : P β
      ⟨run.events, outcome⟩

namespace Invariant

variable {P : (α : Type) → Run α → Prop} (hP : Invariant P)
include hP

theorem pure {α : Type} (a : α) : P α (pure a) :=
  hP.ofExcept (.ok a)

theorem fail {α : Type} {failure : Failure} (h : failure.exitCode = 1) :
    P α (fail failure) :=
  hP.ofExcept (.error h)

theorem debug (text : String) : P Unit (debug text) :=
  hP.log (Nat.le_refl _) text

theorem andThen {α β : Type} {run : Run α} {next : α → Run β} (hrun : P α run)
    (hnext : ∀ a, P β (next a)) : P β (run >>= next) :=
  hP.bind hrun fun a _ => hnext a

theorem recover {α : Type} {run : Run α} {next : Failure → Except Failure α}
    (hrun : P α run) (hnext : ∀ failure, failure.exitCode = 1 →
      ExitsWithOne (next failure)) :
    P α (run.recover next) := by
  cases houtcome : run.outcome with
  | ok a => rwa [recover_ok next houtcome]
  | error failure =>
      rw [recover_error next houtcome]
      exact hP.settle hrun fun hexit => hnext failure (hexit failure houtcome)

theorem refuseAll {α : Type} (target index : Value) (refuse : RefusalKind) :
    P α (Context.refuseAll target index refuse) :=
  hP.ofExcept ((exitsWithOne_refusal target index none).bind
    fun _ => .error rfl)

/-- Reading an index keeps what the accessors to try keep. -/
theorem readWith (host : Host) (target index : Value)
    {accessors : List Accessor}
    (h : ∀ a ∈ accessors, P TypedValue (a.read host target index)) :
    P TypedValue (Context.readWith host target index accessors) := by
  induction accessors with
  | nil => exact hP.refuseAll target index .notReadable
  | cons a rest ih =>
      rw [Context.readWith]
      apply hP.andThen (hP.note a.identity .canRead)
      intro _
      split
      next =>
        refine hP.andThen (hP.debug _) fun _ =>
          hP.andThen (hP.note a.identity .read) fun _ => ?_
        exact hP.recover (h a (by simp)) fun failure hfailure =>
          .error (exitsWithOne_passOn target index .notReadable hfailure)
      next => exact ih fun b hb => h b (List.mem_cons_of_mem a hb)

theorem readElement (target index : Value) :
    P TypedValue (ArrayElement.read target index) := by
  unfold ArrayElement.read
  split
  next => exact hP.fail rfl
  next =>
    exact hP.andThen (hP.ofExcept (exitsWithOne_integerIndex index)) fun _ =>
      hP.andThen (hP.debug _) fun _ => hP.pure _

theorem readIndex (target index : Value) :
    P TypedValue (Context.onlyElements.readIndex target index) := by
  apply hP.readWith _ target index
  intro a ha
  rw [Context.candidates_onlyElements] at ha
  split at ha
  next =>
    obtain rfl := List.mem_singleton.1 ha
    exact hP.readElement target index
  next => cases ha

theorem follow (step : Nat) (current : TypedValue) (indexes : List Value) :
    P TypedValue (Path.follow .onlyElements step current indexes) := by
  induction indexes generalizing step current with
  | nil => exact hP.pure current
  | cons index rest ih =>
      rw [Path.follow]
      split
      next =>
        exact hP.ofExcept ((exitsWithOne_display index).bind
          fun _ => .error rfl)
      next =>
        exact hP.andThen (hP.readIndex _ index) fun next =>
          hP.andThen (hP.debug _) fun _ => ih (step + 1) next

theorem answer {run : Run TypedValue} (h : P TypedValue run) :
    P Result (Feature.settle run) := by
  unfold Feature.settle
  split
  next => exact hP.settle h fun _ => .ok _
  next => exact hP.settle h fun _ => .ok _
  next failure _ heq =>
    exact hP.settle h fun hexit => .error (hexit failure heq)

theorem standard : P Context Context.standard :=
  hP.andThen (hP.andThen (hP.debug _) fun _ => hP.pure _) fun _ => hP.pure _

/-- An invariant of runs holds of reading a document in a standard context. -/
theorem readDocument (document : Text) (indexes : List Value) :
    P Result (Feature.readDocument Context.standard document indexes) := by
  unfold Feature.readDocument
  split
  next => exact hP.pure _
  next => exact hP.fail rfl
  next root _ =>
    refine hP.bind hP.standard fun c hc => hP.answer ?_
    obtain rfl := Except.ok.inj (Context.standard_outcome.symm.trans hc)
    exact hP.andThen (hP.ofExcept (exitsWithOne_ofValue root)) fun n =>
      hP.follow 1 _ indexes

end Invariant
end Run
end IndexAccess
