import IndexAccess.Accessor.Scripted
import IndexAccess.Proofs.Registry.Operations

/-!
# Registries over whole histories

A history lists the calls that a registry has answered, with the replies.  An
accessor stands after it if its last successful change was a registration.
Whatever the calls are and however many of them fail, the registry holds
exactly the standing accessors, in the order of those last registrations, so
that an accessor that is removed and registered again goes to the end.

The invariant is carried over one call at a time.  A call either registers a
new accessor, or removes one that is there, or changes nothing.
-/

namespace IndexAccess
namespace Registry

inductive Call where
  | register (offered : Candidate)
  | unregister (offered : Candidate)

inductive Reply where
  | registered
  | unregistered (found : Bool)
  | failed (failure : Failure)

abbrev History := List (Call × Reply)

/-- What a caller learns from an outcome: that it has succeeded, or its
failure. -/
def Reply.ofOutcome {α : Type} (success : α → Reply) : Except Failure α → Reply
  | .ok a => success a
  | .error failure => .failed failure

/-- The registry that a call leaves, whether it succeeds or fails, and the
reply. -/
def answer (r : Registry) : Call → Registry × Reply
  | .register offered =>
    let (outcome, next) := (register offered).result r
    (next, .ofOutcome (fun _ => .registered) outcome)
  | .unregister offered =>
    let (outcome, next) := (unregister offered).result r
    (next, .ofOutcome .unregistered outcome)

def run (r : Registry) : List Call → Registry × History
  | [] => (r, [])
  | call :: rest =>
    let later := (r.answer call).1.run rest
    (later.1, (call, (r.answer call).2) :: later.2)

namespace Reply

def isRegistration : Reply → Bool
  | registered => true
  | _ => false

def isRemoval : Reply → Bool
  | unregistered found => found
  | _ => false

end Reply

inductive Change where
  | entered (a : Accessor)
  | left (a : Accessor)

def Change.identity : Change → Identity
  | entered a | left a => a.identity

/-! ## Standing accessors -/

namespace History

def change? : Call × Reply → Option Change
  | (.register (.accessor a), .registered) => some (.entered a)
  | (.unregister (.accessor a), .unregistered true) => some (.left a)
  | _ => none

def changes (h : History) : List Change :=
  h.filterMap change?

def registrations (h : History) : Nat :=
  h.countP (·.2.isRegistration)

def removals (h : History) : Nat :=
  h.countP (·.2.isRemoval)

theorem changes_append (h : History) (entry : Call × Reply) :
    changes (h ++ [entry]) = h.changes ++ (change? entry).toList := by
  cases hchange : change? entry <;> simp [changes, hchange]

theorem registrations_append (h : History) (entry : Call × Reply) :
    registrations (h ++ [entry]) =
      h.registrations + if entry.2.isRegistration then 1 else 0 := by
  simp [registrations, List.countP_singleton]

theorem removals_append (h : History) (entry : Call × Reply) :
    removals (h ++ [entry]) =
      h.removals + if entry.2.isRemoval then 1 else 0 := by
  simp [removals, List.countP_singleton]

end History

/-- The accessors whose last change is a registration, in the order of
these. -/
def standing : List Change → List Accessor
  | [] => []
  | .entered a :: later =>
    if later.any (·.identity == a.identity) then standing later
    else a :: standing later
  | .left _ :: later => standing later

/-- Whether the last of the changes that concern an accessor registers it. -/
def Stands (changes : List Change) (a : Accessor) : Prop :=
  ∃ earlier later, changes = earlier ++ .entered a :: later ∧
    ∀ change ∈ later, change.identity ≠ a.identity

theorem stands_cons_iff {change : Change} {rest : List Change} {a : Accessor} :
    Stands (change :: rest) a ↔
      (change = .entered a ∧ ∀ later ∈ rest, later.identity ≠ a.identity) ∨
        Stands rest a := by
  constructor
  · rintro ⟨earlier, later, heq, hlater⟩
    cases earlier with
    | nil =>
        cases heq
        exact .inl ⟨rfl, hlater⟩
    | cons first earlier =>
        cases heq
        exact .inr ⟨earlier, later, rfl, hlater⟩
  · rintro (⟨rfl, hrest⟩ | ⟨earlier, later, rfl, hlater⟩)
    · exact ⟨[], rest, rfl, hrest⟩
    · exact ⟨change :: earlier, later, rfl, hlater⟩

theorem mem_standing_iff {changes : List Change} {a : Accessor} :
    a ∈ standing changes ↔ Stands changes a := by
  induction changes with
  | nil => simp [standing, Stands]
  | cons change rest ih =>
      rw [stands_cons_iff, ← ih]
      cases change with
      | left b => simp [standing]
      | entered b =>
          rw [standing, Change.entered.injEq]
          by_cases hlater :
              (rest.any fun later => later.identity == b.identity) = true
          · rw [if_pos hlater]
            refine ⟨.inr, fun h => h.resolve_left ?_⟩
            rintro ⟨rfl, hrest⟩
            rcases List.any_eq_true.1 hlater with ⟨later, hmem, heq⟩
            exact hrest later hmem (beq_iff_eq.1 heq)
          · have hrest : ∀ later ∈ rest, later.identity ≠ b.identity := by
              intro later hmem heq
              exact hlater (List.any_eq_true.2 ⟨later, hmem, beq_iff_eq.2 heq⟩)
            rw [if_neg hlater, List.mem_cons]
            constructor
            · rintro (rfl | hmem)
              · exact .inl ⟨rfl, hrest⟩
              · exact .inr hmem
            · rintro (⟨rfl, -⟩ | hmem)
              · exact .inl rfl
              · exact .inr hmem

/-- A further change takes its accessor out of its place, and a registration
puts it at the end. -/
theorem standing_append (changes : List Change) (change : Change) :
    standing (changes ++ [change]) =
      (standing changes).filter (·.identity != change.identity) ++ standing
        [change] := by
  induction changes with
  | nil => rfl
  | cons first rest ih =>
      cases first with
      | left b => simpa [standing] using ih
      | entered b =>
          -- An earlier registration counts unless a later change concerns its
          -- accessor, be it one of the others or the further one.
          by_cases hlater : (rest.any fun c => c.identity == b.identity) = true
          · simpa [standing, hlater, -List.any_eq_true] using ih
          · by_cases heq : change.identity = b.identity
            · simp [standing, hlater, heq, -List.any_eq_true, ih]
            · simp [standing, hlater, heq, Ne.symm heq, -List.any_eq_true, ih]

/-! ## One call -/

section Calls

variable (r : Registry)

theorem answer_register_value (v : Value) :
    r.answer (.register (.value v)) =
      (r, .failed (.value (.notAnAccessor v.classOf))) := rfl

theorem answer_register_of_mem {a : Accessor} (h : a.identity ∈ r.identities) :
    r.answer (.register (.accessor a)) =
      (r, .failed (.value (.duplicateAccessor a.name))) := by
  simp only [answer, register_of_mem r h, Reply.ofOutcome]

theorem answer_register_of_not_mem {a : Accessor}
    (h : a.identity ∉ r.identities) :
    r.answer (.register (.accessor a)) = (r.extended a, .registered) := by
  simp only [answer, register_of_not_mem r h, Reply.ofOutcome]

theorem answer_unregister_value (v : Value) :
    r.answer (.unregister (.value v)) = (r, .unregistered false) := rfl

theorem answer_unregister_of_mem {a : Accessor} (hr : r.identities.Nodup)
    (h : a.identity ∈ r.identities) :
    r.answer (.unregister (.accessor a)) =
      (r.without a.identity, .unregistered true) := by
  simp only [answer, unregister_of_mem r hr h, Reply.ofOutcome]

theorem answer_unregister_of_not_mem {a : Accessor}
    (h : a.identity ∉ r.identities) :
    r.answer (.unregister (.accessor a)) = (r, .unregistered false) := by
  simp only [answer, unregister_of_not_mem r h, Reply.ofOutcome]

/-- A call registers a new accessor, or removes one that is there, or changes
nothing. -/
theorem answer_cases (hr : r.identities.Nodup) (call : Call) :
    (∃ a, call = .register (.accessor a) ∧ a.identity ∉ r.identities ∧
      r.answer call = (r.extended a, .registered)) ∨
    (∃ a, call = .unregister (.accessor a) ∧ a.identity ∈ r.identities ∧
      r.answer call = (r.without a.identity, .unregistered true)) ∨
    ∃ reply : Reply, r.answer call = (r, reply) ∧
      reply.isRegistration = false ∧ reply.isRemoval = false := by
  cases call with
  | register offered =>
      cases offered with
      | value v => exact .inr (.inr ⟨_, r.answer_register_value v, rfl, rfl⟩)
      | accessor a =>
          by_cases h : a.identity ∈ r.identities
          · exact .inr (.inr ⟨_, r.answer_register_of_mem h, rfl, rfl⟩)
          · exact .inl ⟨a, rfl, h, r.answer_register_of_not_mem h⟩
  | unregister offered =>
      cases offered with
      | value v => exact .inr (.inr ⟨_, r.answer_unregister_value v, rfl, rfl⟩)
      | accessor a =>
          by_cases h : a.identity ∈ r.identities
          · exact .inr (.inl ⟨a, rfl, h, r.answer_unregister_of_mem hr h⟩)
          · exact .inr (.inr ⟨_, r.answer_unregister_of_not_mem h, rfl, rfl⟩)

end Calls

theorem change?_of_idle (call : Call) {reply : Reply}
    (hregistration : reply.isRegistration = false)
    (hremoval : reply.isRemoval = false) :
    History.change? (call, reply) = none := by
  cases reply with
  | registered => cases hregistration
  | failed => rcases call with ⟨_ | _⟩ | ⟨_ | _⟩ <;> rfl
  | unregistered found =>
      cases hremoval
      rcases call with ⟨_ | _⟩ | ⟨_ | _⟩ <;> rfl

structure HistoryInvariant (r : Registry) (h : History) : Prop where
  nodup : r.identities.Nodup
  accessors_eq : r.accessors = standing h.changes
  size_add_removals : r.size + h.removals = h.registrations

theorem empty_historyInvariant : HistoryInvariant empty [] := by
  constructor
  · exact List.nodup_nil
  · rfl
  · rfl

theorem HistoryInvariant.afterRegistration {r : Registry} {h : History}
    (hinv : HistoryInvariant r h) {a : Accessor}
    (hnew : a.identity ∉ r.identities) :
    HistoryInvariant (r.extended a)
      (h ++ [(.register (.accessor a), .registered)]) := by
  have hchanges :
      History.changes (h ++ [(.register (.accessor a), .registered)]) =
        h.changes ++ [.entered a] :=
    History.changes_append h _
  constructor
  · exact nodup_identities_extended hinv.nodup hnew
  · have hkept := congrArg accessors (without_of_not_mem hnew)
    rw [hchanges, standing_append, ← hinv.accessors_eq]
    exact congrArg (· ++ [a]) hkept.symm
  · have hsize := hinv.size_add_removals
    have hmore : (r.extended a).size = r.size + 1 := List.length_append
    rw [History.registrations_append, History.removals_append, hmore]
    simp only [Reply.isRegistration, Reply.isRemoval, if_true,
      Bool.false_eq_true, if_false]
    omega

theorem HistoryInvariant.afterRemoval {r : Registry} {h : History}
    (hinv : HistoryInvariant r h) {a : Accessor}
    (hmem : a.identity ∈ r.identities) :
    HistoryInvariant (r.without a.identity)
      (h ++ [(.unregister (.accessor a), .unregistered true)]) := by
  have hchanges :
      History.changes (h ++
        [(.unregister (.accessor a), .unregistered true)]) =
        h.changes ++ [.left a] :=
    History.changes_append h _
  constructor
  · exact nodup_identities_without hinv.nodup a.identity
  · rw [hchanges, standing_append, ← hinv.accessors_eq]
    exact (List.append_nil _).symm
  · have hsize := hinv.size_add_removals
    have hless := size_without_add_one hinv.nodup hmem
    rw [History.registrations_append, History.removals_append]
    simp only [Reply.isRegistration, Reply.isRemoval, if_true,
      Bool.false_eq_true, if_false]
    omega

theorem HistoryInvariant.afterIdle {r : Registry} {h : History}
    (hinv : HistoryInvariant r h) (call : Call) {reply : Reply}
    (hregistration : reply.isRegistration = false)
    (hremoval : reply.isRemoval = false) :
    HistoryInvariant r (h ++ [(call, reply)]) := by
  have hchange := change?_of_idle call hregistration hremoval
  constructor
  · exact hinv.nodup
  · rw [History.changes_append, hchange, Option.toList_none, List.append_nil]
    exact hinv.accessors_eq
  · simpa [History.registrations_append, History.removals_append,
      hregistration, hremoval] using hinv.size_add_removals

theorem HistoryInvariant.answer {r : Registry} {h : History}
    (hinv : HistoryInvariant r h) (call : Call) :
    HistoryInvariant (r.answer call).1 (h ++ [(call, (r.answer call).2)]) := by
  rcases r.answer_cases hinv.nodup call with
    ⟨a, rfl, hnew, heq⟩ | ⟨a, rfl, hmem, heq⟩ | ⟨reply, heq, hregistration,
      hremoval⟩
  · rw [heq]
    exact hinv.afterRegistration hnew
  · rw [heq]
    exact hinv.afterRemoval hmem
  · rw [heq]
    exact hinv.afterIdle call hregistration hremoval

theorem run_historyInvariant {r : Registry} {h : History}
    (hinv : HistoryInvariant r h) (calls : List Call) :
    HistoryInvariant (r.run calls).1 (h ++ (r.run calls).2) := by
  induction calls generalizing r h with
  | nil => simpa [run] using hinv
  | cons call rest ih =>
      have hlater := ih (hinv.answer call)
      rwa [List.append_assoc] at hlater

/-- The history in which a registry is made of accessors: each is
registered. -/
def making (offers : List Candidate) : History :=
  offers.map fun offered => (.register offered, .registered)

theorem run_of_forM_register {r made : Registry} {offers : List Candidate}
    (h : (offers.forM register).result r = (.ok (), made)) :
    r.run (offers.map .register) = (made, making offers) := by
  induction offers generalizing r with
  | nil =>
      cases h
      rfl
  | cons offered rest ih =>
      rw [List.forM_eq_forM, List.forM_cons, Procedure.bind_result] at h
      cases hnext : (register offered).result r with
      | mk outcome next =>
          rw [hnext] at h
          cases outcome with
          | error failure => cases h
          | ok u =>
              have hanswer : r.answer (.register offered) =
                  (next, .registered) := by
                simp only [Registry.answer, hnext, Reply.ofOutcome]
              simp only [List.map_cons, run, hanswer, ih h, making]

theorem made_historyInvariant {made : Registry} {offers : List Candidate}
    (h : (ofCandidates offers).outcome = .ok made) :
    HistoryInvariant made (making offers) := by
  have hrun := run_historyInvariant empty_historyInvariant
    (offers.map .register)
  rwa [run_of_forM_register (Procedure.result_of_final h)] at hrun

/-! ## What a reply tells -/

section Replies

variable (r : Registry) (offered : Candidate)

theorem reply_unregister_iff (hr : r.identities.Nodup) :
    ∃ found, (r.answer (.unregister offered)).2 = .unregistered found ∧
      (found = true ↔ ∃ a,
        offered = .accessor a ∧ a.identity ∈ r.identities) := by
  cases offered with
  | value v => exact ⟨false, rfl, by simp⟩
  | accessor a =>
      by_cases h : a.identity ∈ r.identities
      · exact ⟨true, congrArg Prod.snd
          (r.answer_unregister_of_mem hr h), by simp [h]⟩
      · exact ⟨false, congrArg Prod.snd
          (r.answer_unregister_of_not_mem h), by simp [h]⟩

theorem reply_register_iff :
    ((∃ name, (r.answer (.register offered)).2 =
        .failed (.value (.duplicateAccessor name))) ↔
      ∃ a, offered = .accessor a ∧ a.identity ∈ r.identities) ∧
    ((∃ type, (r.answer (.register offered)).2 =
        .failed (.value (.notAnAccessor type))) ↔
      ∃ v, offered = .value v) ∧
    ((r.answer (.register offered)).2 = .registered ↔
      ∃ a, offered = .accessor a ∧ a.identity ∉ r.identities) := by
  cases offered with
  | value v => simp [answer_register_value]
  | accessor a =>
      by_cases h : a.identity ∈ r.identities
      · simp [r.answer_register_of_mem h, h]
      · simp [r.answer_register_of_not_mem h, h]

/-- A call that fails leaves the registry as it was: whatever is refused is
refused before anything changes. -/
theorem answer_of_failed (hr : r.identities.Nodup) {call : Call}
    {failure : Failure} (h : (r.answer call).2 = .failed failure) :
    (r.answer call).1 = r := by
  rcases r.answer_cases hr call with
    ⟨a, -, -, heq⟩ | ⟨a, -, -, heq⟩ | ⟨reply, heq, -, -⟩
  · rw [heq] at h
    cases h
  · rw [heq] at h
    cases h
  · rw [heq]

end Replies

end Registry

/-! ## The registry of a context -/

namespace Context

open Registry

def answer (c : Context) : Call → Context × Reply
  | .register offered =>
    let (outcome, next) := (add offered).result c
    (next, .ofOutcome (fun _ => .registered) outcome)
  | .unregister offered =>
    let (outcome, next) := (remove offered).result c
    (next, .ofOutcome .unregistered outcome)

def run (c : Context) : List Call → Context × History
  | [] => (c, [])
  | call :: rest =>
    let later := (c.answer call).1.run rest
    (later.1, (call, (c.answer call).2) :: later.2)

theorem answer_eq (c : Context) (call : Call) :
    c.answer call =
      ({ c with registry := (c.registry.answer call).1 },
        (c.registry.answer call).2) := by
  cases call with
  | register offered => rw [answer, add, onRegistry_result, Registry.answer]
  | unregister offered =>
      rw [answer, remove, onRegistry_result, Registry.answer]

/-- Calls of a context are calls of its registry, and change nothing else. -/
theorem run_eq (c : Context) (calls : List Call) :
    c.run calls =
      ({ c with registry := (c.registry.run calls).1 },
        (c.registry.run calls).2) := by
  induction calls generalizing c with
  | nil => rfl
  | cons call rest ih => rw [run, answer_eq, ih, Registry.run]

/-- After any calls of a context, the registry of which was made of accessors,
or of none, the registered accessors are those whose last successful change in
the history is a registration, in the order of these and each once; there are
as many as registrations less removals.  A call on the registry then fails
exactly where an accessor is there already or what is offered is none, and
leaves it if it fails. -/
theorem run_follows_history {offers : List Candidate} {c : Context}
    (hmade : (ofCandidates offers).outcome = .ok c.registry)
    (calls : List Call) :
    let r := (c.registry.run calls).1
    let history : History := making offers ++ (c.registry.run calls).2
    c.run calls = ({ c with registry := r }, (c.registry.run calls).2) ∧
    r.identities.Nodup ∧
    (∀ a, a ∈ r.accessors ↔ Stands history.changes a) ∧
    r.accessors = standing history.changes ∧
    (r.size : Int) = (history.registrations : Int) - history.removals ∧
    (∀ offered, ∃ found, (r.answer (.unregister offered)).2 =
      .unregistered found ∧
      (found = true ↔ ∃ a,
        offered = .accessor a ∧ a.identity ∈ r.identities)) ∧
    (∀ offered,
      ((∃ name, (r.answer (.register offered)).2 =
          .failed (.value (.duplicateAccessor name))) ↔
        ∃ a, offered = .accessor a ∧ a.identity ∈ r.identities) ∧
      ((∃ type, (r.answer (.register offered)).2 =
          .failed (.value (.notAnAccessor type))) ↔ ∃ v, offered = .value v) ∧
      ((r.answer (.register offered)).2 = .registered ↔
        ∃ a, offered = .accessor a ∧ a.identity ∉ r.identities)) ∧
    ∀ call failure, (r.answer call).2 = .failed failure →
      (r.answer call).1 = r := by
  intro r history
  have hinv : HistoryInvariant r history :=
    run_historyInvariant (made_historyInvariant hmade) calls
  refine ⟨run_eq c calls, hinv.nodup, ?_, hinv.accessors_eq, ?_, ?_, ?_, ?_⟩
  · intro a
    rw [hinv.accessors_eq, mem_standing_iff]
  · have hsize := hinv.size_add_removals
    omega
  · exact fun offered => r.reply_unregister_iff offered hinv.nodup
  · exact r.reply_register_iff
  · exact fun call failure => r.answer_of_failed hinv.nodup

/-- Of two accessors that a registry is made of, the first is offered again,
removed, and registered again after calls with a number and with an accessor
that is not there. -/
theorem run_follows_history_of_returning_accessor :
    let named (name : String) : Accessor :=
      Script.accessor ⟨name, none, [], .always, .never, .null, .accepts⟩
        (.declared name) []
    let first := named "First"
    let second := named "Second"
    let offers := [Candidate.accessor first, .accessor second]
    let c : Context := ⟨⟨[first, second]⟩, [("limit", .integer 3)]⟩
    let calls := [Call.register (.accessor first),
      .unregister (.accessor first), .register (.value (.integer 3)),
      .unregister (.accessor (named "Third")), .register (.accessor first)]
    (ofCandidates offers).outcome = .ok c.registry ∧
      (c.run calls).1 = ⟨⟨[second, first]⟩, [("limit", .integer 3)]⟩ ∧
      Stands (History.changes (making offers ++
        (c.registry.run calls).2)) first ∧
      ((c.registry.run calls).1.size : Int) = 3 - 1 := by
  intro named first second offers c calls
  have hmade : (ofCandidates offers).outcome = .ok c.registry := rfl
  rcases run_follows_history hmade calls with ⟨hrun, -, hstands, -, hsize, -⟩
  refine ⟨hmade, ?_, (hstands first).1 ?_, hsize⟩
  · rw [hrun]
    rfl
  · exact .tail _ (.head _)

end Context
end IndexAccess
