import IndexAccess.Proofs.Accessor.ElementIndex
import IndexAccess.Proofs.Context.Dispatch

/-!
# Reading through a standard context

A standard context holds the accessor of array elements alone.  It is proposed
for arrays of every class and for nothing else, so that reading through the
context is reading an array element, with the failures of access turned into
refusals.
-/

namespace IndexAccess
namespace Context

/-- The context that `standard` makes. -/
def onlyElements : Context :=
  ⟨⟨[.arrayElement .standard]⟩, []⟩

theorem standard_outcome : standard.outcome = .ok onlyElements := rfl

theorem standard_bind {β : Type} (next : Context → Run β) :
    (standard >>= next).outcome = (next onlyElements).outcome := rfl

theorem candidates_onlyElements (type : Class) :
    onlyElements.registry.candidates type =
      if type.isUnder .arrayNode then [.arrayElement .standard] else [] := by
  cases type with
  | declared type =>
      simp [Registry.candidates, Registry.ranked, onlyElements, Accessor.rank?,
        Accessor.arrayElement, Class.isUnder, Class.ancestors]
  | _ => rfl

theorem isUnder_arrayNode (target : Value) :
    target.classOf.isUnder .arrayNode =
      (ArrayElement.items? target).isSome := by
  cases target with
  | node n =>
      cases n with
      | array style => cases style <;> rfl
      | _ => rfl
  | foreign kind =>
      cases kind with
      | object type => exact Class.isUnder_declared_eq_false type nofun nofun
      | _ => rfl
  | _ => rfl

theorem readIndex_onlyElements (target index : Value) :
    (onlyElements.readIndex target index).outcome =
      if ArrayElement.canRead target index then
        (ArrayElement.read target index).outcome.mapError
          (passOn target index .notReadable)
      else (refuseAll target index .notReadable : Run TypedValue).outcome := by
  rw [readIndex_eq_run, candidates_onlyElements, isUnder_arrayNode]
  cases hitems : ArrayElement.items? target with
  | none => simp [ArrayElement.canRead, hitems, Trial.run, reading]
  | some items =>
      have hcan : ArrayElement.canRead target index =
          (reading onlyElements.host target index).willing
            (.arrayElement .standard) := rfl
      rw [hcan, Option.isSome_some, if_pos rfl]
      by_cases hwilling : (reading onlyElements.host target index).willing
          (.arrayElement .standard) = true
      · rw [if_pos hwilling, Trial.run_cons_of_willing _ _ hwilling]
        rfl
      · rw [if_neg hwilling,
          Trial.run_cons_of_unwilling _ _ (Bool.eq_false_iff.2 hwilling)]
        rfl

end Context
end IndexAccess
