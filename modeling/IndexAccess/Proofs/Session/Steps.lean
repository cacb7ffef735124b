import IndexAccess.Proofs.Entries
import IndexAccess.Proofs.Outcome
import IndexAccess.Proofs.Session.Sharing

/-!
# What the steps of a session leave alone

A step stores something in at most one variable and makes or extends at most
one context.  Two kinds of steps change a container as well; the change shows
at the places that hold the container.  Everything else in a session is as
before, and so a variable that holds no container keeps its value in every run
that does not store in it.
-/

namespace IndexAccess

/-- The variable that a step stores something in. -/
def Step.stored? : Step → Option String
  | .read _ _ _ saveAs | .get _ _ saveAs => saveAs
  | .assign name _ => some name
  | _ => none

/-- The context that a step makes, or whose accessors it changes. -/
def Step.context? : Step → Option String
  | .make name _ | .register name _ | .unregister name _ => some name
  | _ => none

/-- A step that changes the container of a cell. -/
def Step.Changes (s : Session) (cell : Cell) : Step → Prop
  | .add target _ | .set target _ _ =>
    ∃ n : Node, target.eval s.bindings = .ok (.node n) ∧ n.cell? = some cell
  | _ => False

namespace Session

/-- Nothing but one variable and one context may differ between two sessions,
apart from the cells that are still unused. -/
structure Frame (stored? context? : Option String)
    (s s' : Session) : Prop where
  sources_eq : s'.sources = s.sources
  bindings_eq : ∀ name, stored? ≠ some name →
    Entries.get? s'.bindings name = Entries.get? s.bindings name
  contexts_eq : ∀ name, context? ≠ some name →
    Entries.get? s'.contexts name = Entries.get? s.contexts name

/-! ## What a session keeps -/

namespace Frame

variable {stored? context? : Option String} {s s' s'' : Session}

theorem refl (s : Session) : Frame stored? context? s s :=
  ⟨rfl, fun _ _ => rfl, fun _ _ => rfl⟩

theorem trans (h : Frame stored? context? s s')
    (h' : Frame stored? context? s' s'') :
    Frame stored? context? s s'' where
  sources_eq := h'.sources_eq.trans h.sources_eq
  bindings_eq name hname :=
    (h'.bindings_eq name hname).trans (h.bindings_eq name hname)
  contexts_eq name hname :=
    (h'.contexts_eq name hname).trans (h.contexts_eq name hname)

end Frame

/-- Whatever a session comes to by a procedure that succeeds, it stays within a
frame. -/
def StaysWithin (stored? context? : Option String) {α : Type}
    (m : SessionM α) : Prop :=
  ∀ s a s', (m.run s).outcome = .ok (a, s') → Frame stored? context? s s'

/-! ## The parts of a step -/

section Procedures

variable {stored? context? : Option String} {α β : Type}

theorem ok_of_run_bind {m : SessionM α} {next : α → SessionM β}
    {s s'' : Session} {b : β}
    (h : ((m >>= next).run s).outcome = .ok (b, s'')) :
    ∃ a s', (m.run s).outcome = .ok (a, s') ∧
      ((next a).run s').outcome = .ok (b, s'') := by
  have hrun : ((m.run s).outcome.bind fun p => ((next p.1).run p.2).outcome) =
      .ok (b, s'') :=
    (Run.outcome_bind (m.run s) fun p => (next p.1).run p.2).symm.trans h
  obtain ⟨⟨a, s'⟩, hfirst, hrest⟩ := ok_of_bind_eq_ok hrun
  exact ⟨a, s', hfirst, hrest⟩

theorem ok_of_run_lift {run : Run α} {s s' : Session} {a : α}
    (h : ((StateT.lift run : SessionM α).run s).outcome = .ok (a, s')) :
    run.outcome = .ok a ∧ s' = s := by
  have hrun : (run.outcome.bind fun a => .ok (a, s)) = .ok (a, s') :=
    (Run.outcome_bind run fun a => pure (a, s)).symm.trans h
  obtain ⟨b, hok, heq⟩ := ok_of_bind_eq_ok hrun
  obtain ⟨rfl, rfl⟩ := Prod.mk.inj (Except.ok.inj heq)
  exact ⟨hok, rfl⟩

theorem ok_of_run_eval {e : Expression} {s s' : Session} {v : Value}
    (h : ((eval e).run s).outcome = .ok (v, s')) :
    e.eval s.bindings = .ok v ∧ s' = s :=
  ok_of_run_lift h

theorem ok_of_run_evalNode {e : Expression} {s s' : Session} {n : Node}
    (h : ((evalNode e).run s).outcome = .ok (n, s')) : s' = s := by
  obtain ⟨v, t, heval, hnode⟩ := ok_of_run_bind h
  obtain ⟨-, rfl⟩ := ok_of_run_eval heval
  exact (ok_of_run_lift hnode).2

theorem staysWithin_pure (a : α) : StaysWithin stored? context? (pure a) := by
  intro s b s' h
  obtain ⟨-, rfl⟩ := Prod.mk.inj (Except.ok.inj h)
  exact .refl s

theorem StaysWithin.bind {m : SessionM α} {next : α → SessionM β}
    (hm : StaysWithin stored? context? m)
    (hnext : ∀ a, StaysWithin stored? context? (next a)) :
    StaysWithin stored? context? (m >>= next) := by
  intro s b s'' h
  obtain ⟨a, s', hfirst, hrest⟩ := ok_of_run_bind h
  exact (hm s a s' hfirst).trans (hnext a s' b s'' hrest)

theorem staysWithin_lift (run : Run α) :
    StaysWithin stored? context? (StateT.lift run : SessionM α) := by
  intro s a s' h
  rw [(ok_of_run_lift h).2]
  exact .refl s

theorem staysWithin_fail (failure : Failure) :
    StaysWithin stored? context? (fail failure : SessionM α) :=
  staysWithin_lift _

theorem staysWithin_get : StaysWithin stored? context?
    (get : SessionM Session) := by
  intro s a s' h
  obtain ⟨-, rfl⟩ := Prod.mk.inj (Except.ok.inj h)
  exact .refl s

theorem staysWithin_modify {change : Session → Session}
    (h : ∀ s, Frame stored? context? s (change s)) :
    StaysWithin stored? context? (modify change : SessionM PUnit) := by
  intro s a s' heq
  obtain ⟨-, rfl⟩ := Prod.mk.inj (Except.ok.inj heq)
  exact h s

theorem StaysWithin.mapM {f : α → SessionM β}
    (h : ∀ a, StaysWithin stored? context? (f a)) (as : List α) :
    StaysWithin stored? context? (as.mapM f) := by
  induction as with
  | nil => exact staysWithin_pure []
  | cons a rest ih =>
      rw [List.mapM_cons]
      exact (h a).bind fun b => ih.bind fun bs => staysWithin_pure (b :: bs)

theorem staysWithin_eval (e : Expression) :
    StaysWithin stored? context? (eval e) :=
  staysWithin_get.bind fun _ => staysWithin_lift _

theorem staysWithin_shareValue (value : Value) :
    StaysWithin stored? context? (shareValue value) := by
  intro s a s' h
  obtain ⟨-, rfl⟩ := Prod.mk.inj (Except.ok.inj h)
  exact ⟨rfl, fun _ _ => rfl, fun _ _ => rfl⟩

theorem staysWithin_save (name : Option String) (value : Value) :
    StaysWithin name context? (save name value) := by
  cases name with
  | none => exact staysWithin_pure ()
  | some name =>
      refine (staysWithin_shareValue value).bind fun shared =>
        staysWithin_modify fun s => ?_
      refine ⟨rfl, fun other hother => ?_, fun _ _ => rfl⟩
      exact Entries.get?_put_of_ne shared s.bindings fun heq =>
        hother (heq ▸ rfl)

theorem staysWithin_context (name member : String) :
    StaysWithin stored? context? (context name member) := by
  refine staysWithin_get.bind fun s => ?_
  cases s.context? name with
  | some c => exact staysWithin_pure c
  | none => exact staysWithin_fail _

theorem staysWithin_setContext (name : String) (c : Context) :
    StaysWithin stored? (some name) (setContext name c) := by
  refine staysWithin_modify fun s =>
    ⟨rfl, fun _ _ => rfl, fun other hother => ?_⟩
  exact Entries.get?_put_of_ne c s.contexts fun heq => hother (heq ▸ rfl)

theorem staysWithin_candidate (offer : Offer) :
    StaysWithin stored? context? (candidate offer) := by
  cases offer with
  | accessor name =>
      refine staysWithin_get.bind fun s => ?_
      cases s.accessor? name with
      | some a => exact staysWithin_pure _
      | none => exact staysWithin_fail _
  | value e => exact (staysWithin_eval e).bind fun _ => staysWithin_pure _

theorem staysWithin_make (recipe : ContextRecipe) :
    StaysWithin stored? context? (make recipe) := by
  cases recipe with
  | standard => exact staysWithin_lift _
  | withVariables bindings =>
      refine StaysWithin.bind ?_ fun _ => staysWithin_pure _
      refine StaysWithin.bind ?_ fun _ => staysWithin_pure _
      refine StaysWithin.mapM (fun binding => ?_) bindings
      exact (staysWithin_eval _).bind fun _ =>
        (staysWithin_shareValue _).bind fun _ => staysWithin_pure _
  | withRegistry offers =>
      exact (StaysWithin.mapM staysWithin_candidate offers).bind fun _ =>
        (staysWithin_lift _).bind fun _ => staysWithin_pure _

theorem staysWithin_getMember (target key : Expression)
    (saveAs : Option String) :
    StaysWithin saveAs context? (getMember target key saveAs) := by
  refine (staysWithin_eval target).bind fun container => ?_
  split
  next =>
    exact (staysWithin_eval key).bind fun _ =>
      (staysWithin_lift _).bind fun member =>
      (staysWithin_save saveAs member).bind fun _ => staysWithin_pure _
  next => exact staysWithin_fail _

theorem staysWithin_inspect (target : Expression) :
    StaysWithin stored? context? (inspect target) := by
  refine (staysWithin_eval target).bind fun value => ?_
  split
  next =>
    split
    next => exact (staysWithin_lift _).bind fun _ => staysWithin_pure _
    next => exact staysWithin_fail _
  next => exact staysWithin_fail _

theorem staysWithin_register (name : String) (offer : Offer) :
    StaysWithin stored? (some name) (register name offer) :=
  (staysWithin_context name _).bind fun _ =>
    (staysWithin_candidate offer).bind fun _ =>
      (staysWithin_lift _).bind fun _ =>
        (staysWithin_setContext name _).bind fun _ => staysWithin_pure _

theorem staysWithin_unregister (name : String) (offer : Offer) :
    StaysWithin stored? (some name) (unregister name offer) :=
  (staysWithin_context name _).bind fun _ =>
    (staysWithin_candidate offer).bind fun _ =>
      (staysWithin_lift _).bind fun _ =>
        (staysWithin_setContext name _).bind fun _ => staysWithin_pure _

end Procedures

/-! ## One step -/

section Changes

variable {s s' : Session}

/-- What a step leaves of a session: all that is outside of its frame, with the
container of a cell replaced if the step changes that container. -/
def Leaves (st : Step) (s s' : Session) : Prop :=
  ∃ middle, Frame st.stored? st.context? s middle ∧
    (s' = middle ∨ ∃ cell container,
      st.Changes s cell ∧ container.cell? = some cell ∧
      s' = replace cell container middle)

/-- A node keeps its cell when its containers are made sharable. -/
theorem cell?_share {n : Node} {cell : Cell} (h : n.cell? = some cell)
    (next : Cell) :
    (n.share.run next).1.cell? = some cell := by
  cases n with
  | array style other items =>
      obtain rfl : other = some cell := h
      rfl
  | object other fields =>
      obtain rfl : other = some cell := h
      rfl
  | _ => cases h

theorem leaves_of_update {st : Step} {container : Node} {u : Unit}
    (hchanges : ∀ cell, container.cell? = some cell → st.Changes s cell)
    (h : ((update container).run s).outcome = .ok (u, s')) :
    Leaves st s s' := by
  unfold update at h
  cases hcell : container.cell? with
  | none =>
      rw [hcell] at h
      obtain ⟨-, rfl⟩ := Prod.mk.inj (Except.ok.inj h)
      exact ⟨s, .refl s, .inl rfl⟩
  | some cell =>
      rw [hcell] at h
      obtain ⟨-, rfl⟩ := Prod.mk.inj (Except.ok.inj h)
      exact ⟨{ s with nextCell := (container.share.run s.nextCell).2 },
        ⟨rfl, fun _ _ => rfl, fun _ _ => rfl⟩,
        .inr ⟨cell, _, hchanges cell hcell, cell?_share hcell s.nextCell, rfl⟩⟩

theorem leaves_of_staysWithin {st : Step}
    (hwithin : StaysWithin st.stored? st.context? (perform st))
    {answer : Answer} (h : ((perform st).run s).outcome = .ok (answer, s')) :
    Leaves st s s' :=
  ⟨s', hwithin s answer s' h, .inl rfl⟩

theorem leaves_add {target value : Expression} {answer : Answer}
    (h : ((add target value).run s).outcome = .ok (answer, s')) :
    Leaves (.add target value) s s' := by
  obtain ⟨v, t, heval, hrest⟩ := ok_of_run_bind h
  obtain ⟨htarget, rfl⟩ := ok_of_run_eval heval
  split at hrest
  next style cell items =>
    obtain ⟨item, t', hitem, hupdated⟩ := ok_of_run_bind hrest
    obtain rfl := ok_of_run_evalNode hitem
    obtain ⟨u, t'', hupdate, hanswer⟩ := ok_of_run_bind hupdated
    obtain ⟨-, rfl⟩ := Prod.mk.inj (Except.ok.inj hanswer)
    have hchanges : ∀ c, (item.add (.array style cell items)).cell? = some c →
        (Step.add target value).Changes t' c :=
      fun c hcell => ⟨_, htarget, hcell⟩
    exact leaves_of_update hchanges hupdate
  next =>
    obtain ⟨item, t', hitem, hupdated⟩ := ok_of_run_bind hrest
    obtain rfl := ok_of_run_evalNode hitem
    obtain ⟨u, t'', hchecked, hanswer⟩ := ok_of_run_bind hupdated
    obtain ⟨-, rfl⟩ := ok_of_run_lift hchecked
    obtain ⟨-, rfl⟩ := Prod.mk.inj (Except.ok.inj hanswer)
    exact ⟨_, .refl _, .inl rfl⟩
  next =>
    obtain ⟨hfail, -⟩ := ok_of_run_lift hrest
    cases hfail

theorem leaves_set {target value : Expression} {name : String}
    {answer : Answer} (h : ((setField target name value).run s).outcome =
      .ok (answer, s')) :
    Leaves (.set target name value) s s' := by
  obtain ⟨v, t, heval, hrest⟩ := ok_of_run_bind h
  obtain ⟨htarget, rfl⟩ := ok_of_run_eval heval
  split at hrest
  next cell fields =>
    obtain ⟨item, t', hitem, hupdated⟩ := ok_of_run_bind hrest
    obtain rfl := ok_of_run_evalNode hitem
    obtain ⟨u, t'', hupdate, hanswer⟩ := ok_of_run_bind hupdated
    obtain ⟨-, rfl⟩ := Prod.mk.inj (Except.ok.inj hanswer)
    have hchanges : ∀ c,
        (Node.set name item (.object cell fields)).cell? = some c →
        (Step.set target name value).Changes t' c :=
      fun c hcell => ⟨_, htarget, hcell⟩
    exact leaves_of_update hchanges hupdate
  next =>
    obtain ⟨hfail, -⟩ := ok_of_run_lift hrest
    cases hfail

theorem leaves_perform {st : Step} {answer : Answer}
    (h : ((perform st).run s).outcome = .ok (answer, s')) :
    Leaves st s s' := by
  cases st with
  | add target value => exact leaves_add h
  | set target name value => exact leaves_set h
  | make name recipe =>
      refine leaves_of_staysWithin ?_ h
      exact (staysWithin_make recipe).bind fun c =>
        (staysWithin_setContext name c).bind fun _ => staysWithin_pure _
  | register name offer =>
      exact leaves_of_staysWithin (staysWithin_register name offer) h
  | unregister name offer =>
      exact leaves_of_staysWithin (staysWithin_unregister name offer) h
  | state name =>
      refine leaves_of_staysWithin ?_ h
      exact (staysWithin_context name _).bind fun _ =>
        (staysWithin_lift _).bind fun _ => staysWithin_pure _
  | candidates name target =>
      refine leaves_of_staysWithin ?_ h
      exact (staysWithin_context name _).bind fun _ =>
        (staysWithin_eval target).bind fun _ => staysWithin_pure _
  | read name target index saveAs =>
      refine leaves_of_staysWithin ?_ h
      exact (staysWithin_context name _).bind fun _ =>
        (staysWithin_eval target).bind fun _ =>
          (staysWithin_eval index).bind fun _ =>
            (staysWithin_lift _).bind fun _ =>
              (staysWithin_save saveAs _).bind fun _ => staysWithin_pure _
  | write name target index value =>
      refine leaves_of_staysWithin ?_ h
      exact (staysWithin_context name _).bind fun _ =>
        (staysWithin_eval target).bind fun _ =>
          (staysWithin_eval index).bind fun _ =>
            (staysWithin_eval value).bind fun _ =>
              (staysWithin_lift _).bind fun _ => staysWithin_pure _
  | readDocument name document indexes =>
      refine leaves_of_staysWithin ?_ h
      exact staysWithin_get.bind fun _ =>
        (StaysWithin.mapM staysWithin_eval indexes).bind fun _ =>
          (staysWithin_lift _).bind fun _ => staysWithin_pure _
  | assign name value =>
      refine leaves_of_staysWithin ?_ h
      exact (staysWithin_eval value).bind fun v =>
        (staysWithin_save (some name) v).bind fun _ => staysWithin_pure _
  | get target key saveAs =>
      exact leaves_of_staysWithin (staysWithin_getMember target key saveAs) h
  | inspect target =>
      exact leaves_of_staysWithin (staysWithin_inspect target) h
  | compare target other =>
      refine leaves_of_staysWithin ?_ h
      exact (staysWithin_eval target).bind fun _ =>
        (staysWithin_eval other).bind fun _ => staysWithin_pure _

end Changes

/-! ## Several steps -/

section Runs

variable {s : Session}

/-- A step leaves everything outside of its frame, but for the container that
it changes; a step that fails leaves everything. -/
theorem step_leaves (s : Session) (st : Step) : Leaves st s (s.step st).1 := by
  unfold step
  dsimp only
  split
  next answer next hok => exact leaves_perform hok
  next => exact ⟨s, .refl s, .inl rfl⟩

/-- What a variable holds after a step that does not store in it: what it has
held, with the changed container in place if the step changes one. -/
theorem get?_bindings_step (s : Session) {st : Step} {name : String}
    (hname : st.stored? ≠ some name) :
    Entries.get? (s.step st).1.bindings name = Entries.get? s.bindings name ∨
      ∃ cell container, st.Changes s cell ∧ container.cell? = some cell ∧
        Entries.get? (s.step st).1.bindings name =
          (Entries.get? s.bindings name).map
            (Value.replace cell container) := by
  obtain ⟨middle, hframe, hstep | ⟨cell, container, hchanges, hcell, hstep⟩⟩ :=
    step_leaves s st
  · rw [hstep]
    exact .inl (hframe.bindings_eq name hname)
  · refine .inr ⟨cell, container, hchanges, hcell, ?_⟩
    rw [hstep, ← hframe.bindings_eq name hname]
    exact Entries.get?_map (Value.replace cell container) middle.bindings name

/-- A container that changes leaves the accessors of every context. -/
theorem get?_contexts_step (s : Session) {st : Step} {name : String}
    (hname : st.context? ≠ some name) :
    (Entries.get? (s.step st).1.contexts name).map Context.registry =
      (Entries.get? s.contexts name).map Context.registry := by
  obtain ⟨middle, hframe, hstep | ⟨cell, container, -, -, hstep⟩⟩ :=
    step_leaves s st
  · rw [hstep, hframe.contexts_eq name hname]
  · have hget : Entries.get?
        (replace cell container middle).contexts name = _ :=
      Entries.get?_map (Context.replace cell container) middle.contexts name
    rw [hstep, hget, hframe.contexts_eq name hname, Option.map_map]
    rfl

/-- The session after a list of steps. -/
def after (s : Session) (steps : List Step) : Session :=
  steps.foldl (fun s st => (s.step st).1) s

theorem runSteps_append (s : Session) (before later : List Step) :
    s.runSteps (before ++ later) =
      s.runSteps before ++ (s.after before).runSteps later := by
  induction before generalizing s with
  | nil => rfl
  | cons st rest ih =>
      rw [List.cons_append, runSteps, runSteps, List.cons_append]
      exact congrArg _ (ih (s.step st).1)

theorem sources_after (s : Session) (steps : List Step) :
    (s.after steps).sources = s.sources := by
  induction steps generalizing s with
  | nil => rfl
  | cons st rest ih =>
      refine (ih (s.step st).1).trans ?_
      obtain ⟨middle, hframe,
          hstep | ⟨_, _, -, -, hstep⟩⟩ := step_leaves s st <;>
        rw [hstep] <;> exact hframe.sources_eq

/-- A value that holds no container with a cell is no place of any. -/
def HoldsNothing (v : Value) : Prop :=
  ∀ cell, v.held cell = []

/-- A variable that holds no container keeps its value in a run that does not
store in it, whatever is read, written and changed meanwhile. -/
theorem get?_bindings_after {name : String} {v : Value}
    (hvalue : Entries.get? s.bindings name = some v)
    (hnothing : HoldsNothing v) {steps : List Step}
    (hsteps : ∀ st ∈ steps, st.stored? ≠ some name) :
    Entries.get? (s.after steps).bindings name = some v := by
  induction steps generalizing s with
  | nil => exact hvalue
  | cons st rest ih =>
      have hstep : Entries.get? (s.step st).1.bindings name = some v := by
        rcases get?_bindings_step s (hsteps st List.mem_cons_self) with
          heq | ⟨cell, container, -, -, heq⟩
        · rw [heq, hvalue]
        · have hsame : v.replace cell container = v := by
            apply v.changesExactly.replace_eq_self
            rw [hnothing cell]
            exact List.forall_mem_nil _
          rw [heq, hvalue, Option.map_some, hsame]
      exact ih hstep fun other hother =>
        hsteps other (List.mem_cons_of_mem st hother)

/-- A context keeps its accessors in a run that neither makes it anew nor
registers or unregisters accessors there. -/
theorem get?_contexts_after (s : Session) {name : String} {steps : List Step}
    (hsteps : ∀ st ∈ steps, st.context? ≠ some name) :
    (Entries.get? (s.after steps).contexts name).map Context.registry =
      (Entries.get? s.contexts name).map Context.registry := by
  induction steps generalizing s with
  | nil => rfl
  | cons st rest ih =>
      rw [← get?_contexts_step s (hsteps st List.mem_cons_self)]
      exact ih (s.step st).1 fun other hother =>
        hsteps other (List.mem_cons_of_mem st hother)

end Runs

end Session
end IndexAccess
