import IndexAccess.Node.Members
import IndexAccess.Session.Basic

/-!
# A change to a container shows at every place that holds it

The places that hold the container of a cell are those of the outermost
containers with the cell.  Replacing that container puts the new one at all of
these places and changes nothing else: what was there before can be put back,
and a container that is already there makes no difference.
-/

namespace IndexAccess

namespace Node

mutual

/-- The outermost containers of a cell in a node, one for every place. -/
def held (cell : Cell) : Node → List Node
  | array style other items =>
    if other = some cell then [array style other items]
    else heldItems cell items
  | object other fields =>
    if other = some cell then [object other fields] else heldFields cell fields
  | _ => []

def heldItems (cell : Cell) : List Node → List Node
  | [] => []
  | item :: rest => held cell item ++ heldItems cell rest

def heldFields (cell : Cell) : List (Text × Node) → List Node
  | [] => []
  | (_, item) :: rest => held cell item ++ heldFields cell rest

end

end Node

namespace Value

mutual

def held (cell : Cell) : Value → List Node
  | list items | tuple items => heldItems cell items
  | dict entries | mapping entries => heldEntries cell entries
  | node n => n.held cell
  | _ => []

def heldItems (cell : Cell) : List Value → List Node
  | [] => []
  | item :: rest => held cell item ++ heldItems cell rest

def heldEntries (cell : Cell) : List (Value × Value) → List Node
  | [] => []
  | (key, item) :: rest =>
    held cell key ++ held cell item ++ heldEntries cell rest

end

end Value

def Variables.held (cell : Cell) (bindings : Variables) : List Node :=
  bindings.flatMap fun (_, value) => value.held cell

/-- Replacing the container of a cell changes a part of a session at the places
that hold the container, and only there. -/
structure ChangesExactly {α : Type} (cell : Cell) (held : α → List Node)
    (replace : Node → α → α) (a : α) : Prop where
  held_replace {container : Node} (h : container.cell? = some cell) :
    held (replace container a) = (held a).map fun _ => container
  replace_eq_self {container : Node} (h : ∀ n ∈ held a, n = container) :
    replace container a = a
  replace_replace {container : Node} (other : Node)
    (h : container.cell? = some cell) :
    replace other (replace container a) = replace other a

namespace ChangesExactly

variable {α β γ : Type} {cell : Cell} {heldA : α → List Node}
  {heldB : β → List Node} {heldC : γ → List Node} {replaceA : Node → α → α}
    {replaceB : Node → β → β}
  {replaceC : Node → γ → γ} {a : α} {b : β}

/-- A part that holds no container. -/
theorem nothing (hheld : heldA a = []) (hreplace : ∀ c, replaceA c a = a) :
    ChangesExactly cell heldA replaceA a where
  held_replace _ := by rw [hreplace, hheld, List.map_nil]
  replace_eq_self _ := hreplace _
  replace_replace _ _ := by rw [hreplace]

/-- A part that is composed of two others. -/
theorem both {f : α → β → γ} (ha : ChangesExactly cell heldA replaceA a)
    (hb : ChangesExactly cell heldB replaceB b)
    (hheld : ∀ a b, heldC (f a b) = heldA a ++ heldB b)
    (hreplace : ∀ c a b, replaceC c (f a b) =
      f (replaceA c a) (replaceB c b)) :
    ChangesExactly cell heldC replaceC (f a b) where
  held_replace h := by
    rw [hreplace, hheld, hheld, ha.held_replace h, hb.held_replace h,
      List.map_append]
  replace_eq_self h := by
    rw [hheld] at h
    rw [hreplace, ha.replace_eq_self fun n hn =>
      h n (List.mem_append_left _ hn), hb.replace_eq_self fun n hn =>
        h n (List.mem_append_right _ hn)]
  replace_replace other h := by
    rw [hreplace, hreplace, hreplace, ha.replace_replace other h,
      hb.replace_replace other h]

/-- A part that wraps another one. -/
theorem wrap {f : α → γ} (ha : ChangesExactly cell heldA replaceA a)
    (hheld : ∀ a, heldC (f a) = heldA a)
    (hreplace : ∀ c a, replaceC c (f a) = f (replaceA c a)) :
    ChangesExactly cell heldC replaceC (f a) where
  held_replace h := by rw [hreplace, hheld, hheld, ha.held_replace h]
  replace_eq_self h := by rw [hreplace, ha.replace_eq_self (hheld a ▸ h)]
  replace_replace other h := by
    rw [hreplace, hreplace, hreplace, ha.replace_replace other h]

end ChangesExactly

namespace Node

variable {cell : Cell} {n : Node}

theorem held_of_cell? (h : n.cell? = some cell) : n.held cell = [n] := by
  cases n with
  | array | object => exact if_pos h
  | _ => cases h

theorem replace_of_cell? (h : n.cell? = some cell) (container : Node) :
    replace cell container n = container := by
  cases n with
  | array | object => exact if_pos h
  | _ => cases h

/-- A container of the cell is itself the only place. -/
theorem changesExactly_of_cell? (h : n.cell? = some cell) :
    ChangesExactly cell (held cell) (replace cell) n where
  held_replace hcontainer := by
    rw [replace_of_cell? h, held_of_cell? h, held_of_cell? hcontainer,
      List.map_singleton]
  replace_eq_self hheld := by
    rw [held_of_cell? h, List.forall_mem_singleton] at hheld
    rw [replace_of_cell? h, hheld]
  replace_replace other hcontainer := by
    rw [replace_of_cell? h, replace_of_cell? h, replace_of_cell? hcontainer]

mutual

theorem changesExactly : ∀ n :
    Node, ChangesExactly cell (held cell) (replace cell) n
  | array style other items => by
    by_cases h : other = some cell
    · exact changesExactly_of_cell? h
    · exact (changesExactly_items items).wrap
        (fun _ => if_neg h) (fun _ _ => if_neg h)
  | object other fields => by
    by_cases h : other = some cell
    · exact changesExactly_of_cell? h
    · exact (changesExactly_fields fields).wrap
        (fun _ => if_neg h) (fun _ _ => if_neg h)
  | text _ | integer _ | number _ | boolean _ | null =>
      .nothing rfl fun _ => rfl

theorem changesExactly_items :
    ∀ items : List Node, ChangesExactly cell (heldItems cell)
      (replaceItems cell) items
  | [] => .nothing rfl fun _ => rfl
  | item :: rest =>
    (changesExactly item).both (changesExactly_items rest)
      (fun _ _ => rfl) fun _ _ _ => rfl

theorem changesExactly_fields :
    ∀ fields : List (Text × Node),
      ChangesExactly cell (heldFields cell) (replaceFields cell) fields
  | [] => .nothing rfl fun _ => rfl
  | (name, item) :: rest =>
    (changesExactly item).both (f := fun item rest => (name, item) :: rest)
      (changesExactly_fields rest) (fun _ _ => rfl) fun _ _ _ => rfl

end

end Node

namespace Value

variable {cell : Cell}

mutual

theorem changesExactly : ∀ v :
    Value, ChangesExactly cell (held cell) (replace cell) v
  | list items =>
    (changesExactly_items items).wrap (fun _ => rfl) fun _ _ => rfl
  | tuple items =>
    (changesExactly_items items).wrap (fun _ => rfl) fun _ _ => rfl
  | dict entries =>
    (changesExactly_entries entries).wrap (fun _ => rfl) fun _ _ => rfl
  | mapping entries =>
    (changesExactly_entries entries).wrap (fun _ => rfl) fun _ _ => rfl
  | node n => n.changesExactly.wrap (fun _ => rfl) fun _ _ => rfl
  | null | boolean _ | integer _ | number _ | text _ | bytes _ | foreign _ =>
    .nothing rfl fun _ => rfl

theorem changesExactly_items :
    ∀ items : List Value, ChangesExactly cell (heldItems cell)
      (replaceItems cell) items
  | [] => .nothing rfl fun _ => rfl
  | item :: rest =>
    (changesExactly item).both (changesExactly_items rest)
      (fun _ _ => rfl) fun _ _ _ => rfl

theorem changesExactly_entries :
    ∀ entries : List (Value × Value),
      ChangesExactly cell (heldEntries cell) (replaceEntries cell) entries
  | [] => .nothing rfl fun _ => rfl
  | (key, item) :: rest =>
    have entry : ChangesExactly cell (fun e : Value × Value => held cell e.1 ++
        held cell e.2)
        (fun c e => (replace cell c e.1, replace cell c e.2)) (key, item) :=
      (changesExactly key).both (changesExactly item)
        (fun _ _ => rfl) fun _ _ _ => rfl
    entry.both (changesExactly_entries rest) (fun _ _ => rfl) fun _ _ _ => rfl

end

end Value

theorem Variables.changesExactly {cell : Cell} (bindings : Variables) :
    ChangesExactly cell (Variables.held cell)
      (Variables.replace cell) bindings := by
  induction bindings with
  | nil => exact .nothing rfl fun _ => rfl
  | cons binding rest ih =>
      obtain ⟨name, value⟩ := binding
      exact value.changesExactly.both
        (f := fun value rest => (name, value) :: rest) ih
        (fun _ _ => rfl) fun _ _ _ => rfl

namespace Session

def heldInContexts (cell : Cell) (contexts : List (String × Context)) :
    List Node :=
  contexts.flatMap fun (_, c) => c.bindings.held cell

/-- The outermost containers of a cell in a session, one for every place. -/
def held (cell : Cell) (s : Session) : List Node :=
  s.bindings.held cell ++ heldInContexts cell s.contexts

theorem changesExactly_contexts {cell : Cell}
    (contexts : List (String × Context)) :
    ChangesExactly cell (heldInContexts cell)
      (fun container => List.map fun (name, c) =>
        (name, c.replace cell container))
      contexts := by
  induction contexts with
  | nil => exact .nothing rfl fun _ => rfl
  | cons entry rest ih =>
      obtain ⟨name, registry, bindings⟩ := entry
      exact bindings.changesExactly.both
        (f := fun bindings rest =>
          (name, Context.mk registry bindings) :: rest) ih
        (fun _ _ => rfl) fun _ _ _ => rfl

/-- A changed container is afterwards at exactly the places of a session where
it was before, and nothing else has changed. -/
theorem changesExactly {cell : Cell} (s : Session) :
    ChangesExactly cell (held cell) (replace cell) s :=
  s.bindings.changesExactly.both
    (f := fun bindings contexts => { s with bindings, contexts })
    (changesExactly_contexts s.contexts) (fun _ _ => rfl) fun _ _ _ => rfl

end Session
end IndexAccess
