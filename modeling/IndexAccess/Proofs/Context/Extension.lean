import IndexAccess.Proofs.Accessor.IgnoresRegistry
import IndexAccess.Proofs.Context.Dispatch
import IndexAccess.Proofs.Registry.Candidates
import IndexAccess.Session.Basic

/-!
# Contexts with one more accessor

A further accessor is tried right after the accessors of its rank and of lower
ranks.  It takes over an index if it is willing and none of those is, and then
its own outcome is passed on.  Every other index comes out as before, with a
value or with a failure: the accessor that decided on it still comes first, or
nobody was willing and nobody is.
-/

namespace IndexAccess

/-- Whether a further accessor would be the first willing one: it has a rank
and is willing, and no registered accessor of that rank or a lower one is. -/
def Registry.TakesOver (r : Registry) (x : Accessor) (type : Class)
    (willing : Accessor → Bool) : Prop :=
  ∃ rank, x.HasRank type rank ∧ willing x = true ∧
    ∀ a ∈ r.accessors, ∀ i ≤ rank, a.HasRank type i → willing a = false

namespace Context

namespace Trial

variable {α : Type} (t : Trial α)

/-- An accessor that is not the first willing one may be left out. -/
theorem outcome_insert {front : List Accessor} {x : Accessor}
    (later : List Accessor)
    (h : ¬((∀ a ∈ front, t.willing a = false) ∧ t.willing x = true)) :
    (t.run (front ++ x :: later)).outcome =
      (t.run (front ++ later)).outcome := by
  induction front with
  | nil =>
      have hx : t.willing x = false := by simpa using h
      rw [List.nil_append, t.run_cons_of_unwilling later hx, List.nil_append]
  | cons a rest ih =>
      rw [List.cons_append, List.cons_append]
      by_cases ha : t.willing a = true
      · rw [t.run_cons_of_willing _ ha, t.run_cons_of_willing _ ha]
      · have hunwilling := Bool.eq_false_iff.2 ha
        rw [t.run_cons_of_unwilling _ hunwilling,
          t.run_cons_of_unwilling _ hunwilling]
        apply ih
        rintro ⟨hrest, hx⟩
        refine h ⟨fun b hb => ?_, hx⟩
        rcases List.mem_cons.1 hb with rfl | hmem
        · exact hunwilling
        · exact hrest b hmem

/-! ## A further accessor -/

section Extended

variable {r : Registry} {x : Accessor} {type : Class}

theorem outcome_extended_of_takesOver (h : r.TakesOver x type t.willing) :
    (t.run ((r.extended x).candidates type)).outcome =
      t.settle (t.act x).outcome := by
  rcases h with ⟨rank, hrank, hx, hothers⟩
  rcases Registry.exists_candidates_extended (r := r) hrank with
    ⟨later, -, hextended⟩
  rw [hextended]
  refine t.outcome_of_first later (fun a ha => ?_) hx
  rcases Registry.mem_upTo.1 ha with ⟨hmem, i, hle, hi⟩
  exact hothers a hmem i hle hi

theorem outcome_extended_of_not_takesOver (h : ¬r.TakesOver x type t.willing) :
    (t.run ((r.extended x).candidates type)).outcome =
      (t.run (r.candidates type)).outcome := by
  by_cases hranked : ∃ rank, x.HasRank type rank
  · rcases hranked with ⟨rank, hrank⟩
    rcases Registry.exists_candidates_extended (r := r) hrank with
      ⟨later, hold, hextended⟩
    rw [hold, hextended]
    apply t.outcome_insert later
    rintro ⟨hothers, hx⟩
    refine h ⟨rank, hrank, hx, fun a hmem i hle hi => ?_⟩
    exact hothers a (Registry.mem_upTo.2 ⟨hmem, i, hle, hi⟩)
  · rw [Registry.candidates_extended_of_unranked (not_exists.1 hranked)]

end Extended

end Trial

end Context

/-- Whether a step has read a value. -/
def Session.Report.hasRead (v : Value) (r : Report) : Bool :=
  match r.answer with
  | .ok (.typed t) => t.value.same v
  | _ => false

namespace Context

/-! ## Two hosts -/

section Hosts

variable {host other : Host} (h : host.bindings = other.bindings)
  {accessors : List Accessor} (hignore : ∀ a ∈ accessors, a.IgnoresRegistry)
    (target index value : Value)
include h hignore

theorem reading_outcome_congr :
    ((reading host target index).run accessors).outcome =
      ((reading other target index).run accessors).outcome :=
  Trial.outcome_congr (fun a ha => (hignore a ha).canRead_eq h target index)
    (fun a ha => (hignore a ha).read_outcome_eq h target index) rfl rfl

theorem writing_outcome_congr :
    ((writing host target index value).run accessors).outcome =
      ((writing other target index value).run accessors).outcome :=
  Trial.outcome_congr (fun a ha => (hignore a ha).canWrite_eq h target index)
    (fun a ha => (hignore a ha).write_outcome_eq h target index value) rfl rfl

end Hosts

/-- Adding a new accessor to accessors that ignore the registry is a
conservative extension.  The accessor decides on what it takes over, with its
own outcome as the host passes it on; every other reading and writing has the
outcome that it had.  Removing the accessor again gives the context back. -/
theorem add_conservative (c : Context) (x : Accessor)
    (hignore : ∀ a ∈ c.registry.accessors, a.IgnoresRegistry)
    (hnew : x.identity ∉ c.registry.identities) :
    ∃ extended : Context, (add (.accessor x)).result c = (.ok (), extended) ∧
      (∀ target index,
        let willing := fun a : Accessor => a.canRead extended.host target index
        (c.registry.TakesOver x target.classOf willing →
          (extended.readIndex target index).outcome =
            (x.read extended.host target index).outcome.mapError
              (passOn target index .notReadable)) ∧
        (¬c.registry.TakesOver x target.classOf willing →
          (extended.readIndex target index).outcome =
            (c.readIndex target index).outcome)) ∧
      (∀ target index value,
        let willing := fun a : Accessor =>
          a.canWrite extended.host target index
        (c.registry.TakesOver x target.classOf willing →
          (extended.writeIndex target index value).outcome =
            (x.write extended.host target index value).outcome.mapError
              (passOn target index .notWritable)) ∧
        (¬c.registry.TakesOver x target.classOf willing →
          (extended.writeIndex target index value).outcome =
            (c.writeIndex target index value).outcome)) ∧
      (remove (.accessor x)).result extended = (.ok true, c) := by
  let extended : Context := { c with registry := c.registry.extended x }
  have hbindings : extended.host.bindings = c.host.bindings := by
    rw [host_bindings, host_bindings]
  have hcandidates : ∀ type, ∀ a ∈ c.registry.candidates type,
      a.IgnoresRegistry :=
    fun type a ha => hignore a (Registry.mem_candidates.1 ha).1
  refine ⟨extended, ?_, ?_, ?_, ?_⟩
  · rw [add, onRegistry_result, Registry.register_of_not_mem _ hnew]
  · intro target index willing
    let t := reading extended.host target index
    rw [readIndex_eq_run, readIndex_eq_run]
    refine ⟨t.outcome_extended_of_takesOver, fun hnot => ?_⟩
    exact (t.outcome_extended_of_not_takesOver hnot).trans
      (reading_outcome_congr hbindings
        (hcandidates target.classOf) target index)
  · intro target index value willing
    let t := writing extended.host target index value
    rw [writeIndex_eq_run, writeIndex_eq_run]
    refine ⟨t.outcome_extended_of_takesOver, fun hnot => ?_⟩
    exact (t.outcome_extended_of_not_takesOver hnot).trans
      (writing_outcome_congr hbindings (hcandidates target.classOf)
        target index value)
  · rw [remove, onRegistry_result, Registry.unregister_extended _ hnew]

/-- An accessor for texts comes in before a general one, and fails where that
one succeeded; a numeric text stays with the accessor of its rank that was
there first. -/
theorem add_conservative_before_general :
    let general := Script.accessor
      ⟨"General", none, [], .always, .never, .index, .accepts⟩
        (.declared "a") []
    let numeric := Script.accessor
      ⟨"Numeric", none, [.none], .numericTexts, .never, .null, .accepts⟩
        (.declared "b") []
    let x := Script.accessor
      ⟨"Texts", none, [.none], .texts, .always,
        .fails (.inaccessible "closed"), .accepts⟩
      (.declared "c") []
    let c : Context := ⟨⟨[general, numeric]⟩, []⟩
    (∀ a ∈ c.registry.accessors, a.IgnoresRegistry) ∧
      x.identity ∉ c.registry.identities ∧
      ∃ extended : Context, (add (.accessor x)).result c = (.ok (), extended) ∧
        (extended.readIndex .null (.text "first")).outcome =
          .error (.index (.notReadable
            ⟨.none, .text "first", Text.quoted "first", some "closed"⟩
            (some (.inaccessible "closed")))) ∧
        (extended.readIndex .null (.text "1")).outcome =
          (c.readIndex .null (.text "1")).outcome ∧
        (remove (.accessor x)).result extended = (.ok true, c) := by
  intro general numeric x c
  have hignore : ∀ a ∈ c.registry.accessors, a.IgnoresRegistry := by
    intro a ha
    rcases List.mem_pair.1 ha with rfl | rfl
    · exact (Script.callsIgnoreRegistry (by rintro _ ⟨⟩) _ _).toIgnoresRegistry
    · exact (Script.callsIgnoreRegistry (by rintro _ ⟨⟩) _ _).toIgnoresRegistry
  have hnew : x.identity ∉ c.registry.identities := by decide
  have hx : x.HasRank .none 0 := Accessor.hasRank_of_rank? rfl
  have hnumeric : numeric.HasRank .none 0 := Accessor.hasRank_of_rank? rfl
  have hgeneral : general.HasRank .none 2 := Accessor.hasRank_of_rank? rfl
  rcases add_conservative c x hignore hnew with
    ⟨extended, hadd, hread, -, hremove⟩
  have htakes : c.registry.TakesOver x .none
      (·.canRead extended.host .null (.text "first")) := by
    refine ⟨0, hx, rfl, fun a ha i hle hi => ?_⟩
    rcases List.mem_pair.1 ha with rfl | rfl
    · exact absurd (hi.unique hgeneral) (by omega)
    · rfl
  have hstays : ¬c.registry.TakesOver x .none
      (·.canRead extended.host .null (.text "1")) := by
    rintro ⟨rank, hrank, -, hothers⟩
    have hzero := hothers numeric (by simp [c]) 0 (Nat.zero_le rank) hnumeric
    cases hzero
  exact ⟨hignore, hnew, extended, hadd, (hread .null (.text "first")).1 htakes,
    (hread .null (.text "1")).2 hstays, hremove⟩

/-- Adding an accessor that has no rank for the target changes what is read, if
an accessor does not ignore the registry, or if it reads what has changed in
between.  In the first context, an accessor for texts reads the index from an
array in place of the text, through its host.  In the second one, an accessor
puts into a list what a variable holds at the time, which is what was read
last. -/
theorem add_not_conservative :
    (let sevens : Expression := .node (.list [.scalar (.integer 7)])
    let forwarding := Script.accessor
      ⟨"Forwarding", none, [.text], .always, .never, .forwarded sevens,
        .accepts⟩
      (.declared "a") []
    let x := Accessor.arrayElement (.declared "b")
    let c : Context := ⟨⟨[forwarding]⟩, []⟩
    x.identity ∉ c.registry.identities ∧ (∀ rank, ¬x.HasRank .text rank) ∧
      (c.readIndex (.text "s") (.text "0")).outcome =
        .error (.index (.notReadable ⟨.arrayNode, .text "0", Text.quoted "0",
          none⟩ none)) ∧
      ∃ extended : Context, (add (.accessor x)).result c = (.ok (), extended) ∧
        (extended.readIndex (.text "s") (.text "0")).outcome =
          .ok (.scalar (.integer 7))) ∧
    (let changing : AccessorSource := .scripted
      ⟨"Changing", none, [], .always, .never, .scalar (.list [.stored "v"]),
        .accepts⟩
    let texts : AccessorSource := .scripted
      ⟨"Texts", none, [.text], .always, .never, .null, .accepts⟩
    let reading : Step := .read "main" (.scalar .null)
      (.scalar (.text "0")) (some "v")
    let reports := (Session.start [("a", changing), ("b", texts)]).runSteps
      [.make "main" (.withVariables []), .assign "v" (.scalar .null),
        .register "main" (.accessor "a"), reading,
        .register "main" (.accessor "b"), reading]
    (reports[3]?.any (·.hasRead (.list [.null]))) ∧
      reports[5]?.any (·.hasRead (.list [.list [.null]]))) := by
  refine ⟨⟨by decide, Accessor.rank?_eq_none_iff.1 rfl, rfl, ?_⟩, by
    decide +kernel⟩
  exact ⟨⟨⟨[_, .arrayElement (.declared "b")]⟩, []⟩, rfl, rfl⟩

end Context
end IndexAccess
