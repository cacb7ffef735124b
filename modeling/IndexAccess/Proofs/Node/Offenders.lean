import IndexAccess.Node.Native
import IndexAccess.Proofs.Outcome

/-!
# What keeps a value from having a node

A number that is not finite, a key of a mapping that is no text, and a value of
a class without a JSON meaning are offenders.  They are listed here in the
order in which they stand in a value, a key before its item, and nodes inside a
value are not looked at.  A value has a node exactly if the list is empty, and
otherwise its failure is that of the first offender.
-/

namespace IndexAccess

inductive Offender where
  | number (x : Binary64)
  | key (key : Value)
  | value (v : Value)

/-- The failure of an offender.  It shows a key, and a key that cannot be shown
makes another failure of it. -/
def Offender.failure : Offender → Failure
  | number x => .index (.unrepresentable (.notFinite .number x.text))
  | key k =>
    match k.obstacle? with
    | none => .index (.unrepresentable (.keyNotText k.classOf k.shown))
    | some obstacle => .value obstacle
  | value v => .index (.unrepresentable (.noRepresentation v.classOf))

theorem Offender.failure_cases (o : Offender) :
    (∃ fault, o.failure = .index (.unrepresentable fault)) ∨
      ∃ k obstacle, o = .key k ∧ k.obstacle? = some obstacle ∧
        o.failure = .value obstacle := by
  cases o with
  | number x => exact .inl ⟨_, rfl⟩
  | value v => exact .inl ⟨_, rfl⟩
  | key k =>
      rw [failure]
      cases hk : k.obstacle? with
      | none => exact .inl ⟨_, rfl⟩
      | some obstacle => exact .inr ⟨k, obstacle, rfl, hk, rfl⟩

namespace Value

def numberOffenders : Binary64 → List Offender
  | .finite _ => []
  | x => [.number x]

def keyOffenders : Value → List Offender
  | .text _ => []
  | k => [.key k]

mutual

def offenders : Value → List Offender
  | number x => numberOffenders x
  | list items | tuple items => itemOffenders items
  | dict entries | mapping entries => entryOffenders entries
  | bytes b => [.value (bytes b)]
  | foreign kind => [.value (foreign kind)]
  | _ => []

def itemOffenders : List Value → List Offender
  | [] => []
  | item :: rest => offenders item ++ itemOffenders rest

def entryOffenders : List (Value × Value) → List Offender
  | [] => []
  | (k, item) :: rest =>
    keyOffenders k ++ (offenders item ++ entryOffenders rest)

end

theorem itemOffenders_eq (items : List Value) :
    itemOffenders items = items.flatMap offenders := by
  induction items with
  | nil => rfl
  | cons item rest ih => rw [itemOffenders, ih, List.flatMap_cons]

theorem entryOffenders_eq (entries : List (Value × Value)) :
    entryOffenders entries =
      entries.flatMap fun entry =>
        keyOffenders entry.1 ++ offenders entry.2 := by
  induction entries with
  | nil => rfl
  | cons entry rest ih =>
      rw [entryOffenders, ih, List.flatMap_cons, List.append_assoc]

end Value

/-- An outcome that is a failure of the first offender, and a success if there
is none. -/
inductive StopsAtFirst {α : Type} : List Offender → Except Failure α → Prop
  | ok (a : α) : StopsAtFirst [] (.ok a)
  | error (first : Offender) (later : List Offender) :
      StopsAtFirst (first :: later) (.error first.failure)

namespace StopsAtFirst

variable {α β : Type} {before after : List Offender}
  {outcome : Except Failure α}

theorem bind {next : α → Except Failure β} (h : StopsAtFirst before outcome)
    (hnext : ∀ a, StopsAtFirst after (next a)) :
    StopsAtFirst (before ++ after) (outcome >>= next) := by
  cases h with
  | ok a => exact hnext a
  | error first later => exact .error first (later ++ after)

theorem map (f : α → β) (h : StopsAtFirst before outcome) :
    StopsAtFirst before (outcome >>= fun a => pure (f a)) := by
  cases h with
  | ok a => exact .ok (f a)
  | error first later => exact .error first later

end StopsAtFirst

namespace Node

theorem stopsAtFirst_ofNumber (x : Binary64) :
    StopsAtFirst (Value.numberOffenders x) (ofNumber (.number x) x) := by
  cases x with
  | finite x => exact .ok (number x)
  | infinite negative => exact .error (.number (.infinite negative)) []
  | nan => exact .error (.number .nan) []

theorem stopsAtFirst_fieldName (k : Value) :
    StopsAtFirst (Value.keyOffenders k) (fieldName k) := by
  unfold fieldName
  split
  next name => exact .ok name
  next =>
    have hoffenders : Value.keyOffenders k = [.key k] := by
      simp [Value.keyOffenders]
    have hfailure := StopsAtFirst.error (α := Text) (.key k) []
    rw [hoffenders]
    cases hk : k.obstacle? with
    | none =>
        rw [Value.display_of_no_obstacle hk]
        rwa [Offender.failure, hk] at hfailure
    | some obstacle =>
        rw [Value.display_of_obstacle hk]
        rwa [Offender.failure, hk] at hfailure

-- One statement for each of the functions that build a node, along their
-- recursion.
mutual

theorem stopsAtFirst_ofValue : ∀ v :
    Value, StopsAtFirst v.offenders (ofValue v)
  | .node n => .ok n
  | .null => .ok null
  | .boolean b => .ok (boolean b)
  | .integer i => .ok (integer i)
  | .text s => .ok (text s)
  | .number x => by
    rw [ofValue, Value.offenders]
    exact stopsAtFirst_ofNumber x
  | .list items | .tuple items => by
    rw [ofValue, Value.offenders]
    exact (stopsAtFirst_ofItems items).map _
  | .dict entries | .mapping entries => by
    rw [ofValue, Value.offenders]
    exact (stopsAtFirst_ofEntries entries).map _
  | .bytes b => .error (.value (.bytes b)) []
  | .foreign kind => .error (.value (.foreign kind)) []

theorem stopsAtFirst_ofItems :
    ∀ items : List Value, StopsAtFirst (Value.itemOffenders items)
      (ofItems items)
  | [] => .ok []
  | item :: rest => by
    rw [ofItems, Value.itemOffenders]
    exact (stopsAtFirst_ofValue item).bind fun _ =>
      (stopsAtFirst_ofItems rest).map _

theorem stopsAtFirst_ofEntries :
    ∀ entries : List (Value × Value),
      StopsAtFirst (Value.entryOffenders entries) (ofEntries entries)
  | [] => .ok []
  | (k, item) :: rest => by
    rw [ofEntries, Value.entryOffenders]
    exact (stopsAtFirst_fieldName k).bind fun _ =>
      (stopsAtFirst_ofValue item).bind fun _ =>
        (stopsAtFirst_ofEntries rest).map _

end

/-- A value has a node, or it has offenders and fails with the first one. -/
theorem ofValue_cases (v : Value) :
    (v.offenders = [] ∧ ∃ n, ofValue v = .ok n) ∨
      ∃ first later, v.offenders = first :: later ∧
        ofValue v = .error first.failure := by
  have hstops := stopsAtFirst_ofValue v
  generalize v.offenders = offenders at hstops
  generalize ofValue v = outcome at hstops
  cases hstops with
  | ok n => exact .inl ⟨rfl, n, rfl⟩
  | error first later => exact .inr ⟨first, later, rfl, rfl⟩

end Node
end IndexAccess
