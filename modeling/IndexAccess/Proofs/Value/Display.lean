import IndexAccess.Value.Display

/-!
# What keeps a value from being shown

The failure to show a value is that of a part of it: of an integer beyond the
digit limit, which may stand inside a node, or of an object whose class fails
to show it.
-/

namespace IndexAccess
namespace Value

/-- A part of a value: the value itself, or a part of an item, of a key or of a
content. -/
inductive IsPart (part : Value) : Value → Prop
  | whole : IsPart part part
  | item {v item : Value} {items : List Value} (hv : v.sequence? = some items)
      (hitem : item ∈ items) (hpart : IsPart part item) : IsPart part v
  | key {v k content : Value} {entries : List (Value × Value)}
      (hv : v.entries? = some entries) (hentry : (k, content) ∈ entries)
      (hpart : IsPart part k) : IsPart part v
  | content {v k content : Value} {entries : List (Value × Value)}
      (hv : v.entries? = some entries) (hentry : (k, content) ∈ entries)
      (hpart : IsPart part content) : IsPart part v

/-- A value that cannot be shown whatever it is part of, and its failure. -/
inductive Obstructs : Value → ValueFailure → Prop
  | integer {i : Int}
    (hi : Number.isWritable i = false) : Obstructs (.integer i) .integerTooLong
  | node {n : Node}
    (hn : n.isWritable = false) : Obstructs (.node n) .integerTooLong
  | object (type : DeclaredClass) (failure : Raised) :
      Obstructs (.foreign (.object type (.error failure))) (.raised failure)

/-- Some part of a value obstructs with a failure. -/
def HasObstacle (v : Value) (obstacle : ValueFailure) : Prop :=
  ∃ part : Value, part.IsPart v ∧ part.Obstructs obstacle

namespace HasObstacle

variable {v w k : Value} {items : List Value} {entries : List (Value × Value)}
  {obstacle : ValueFailure}

theorem item (hv : v.sequence? = some items) (hitem : w ∈ items)
    (h : w.HasObstacle obstacle) : v.HasObstacle obstacle := by
  obtain ⟨part, hpart, hobstructs⟩ := h
  exact ⟨part, .item hv hitem hpart, hobstructs⟩

theorem key (hv : v.entries? = some entries) (hentry : (k, w) ∈ entries)
    (h : k.HasObstacle obstacle) : v.HasObstacle obstacle := by
  obtain ⟨part, hpart, hobstructs⟩ := h
  exact ⟨part, .key hv hentry hpart, hobstructs⟩

theorem content (hv : v.entries? = some entries) (hentry : (k, w) ∈ entries)
    (h : w.HasObstacle obstacle) : v.HasObstacle obstacle := by
  obtain ⟨part, hpart, hobstructs⟩ := h
  exact ⟨part, .content hv hentry hpart, hobstructs⟩

end HasObstacle

theorem hasObstacle_integer {i : Int} {obstacle : ValueFailure}
    (h : (integer i).obstacle? = some obstacle) :
    (integer i).HasObstacle obstacle := by
  by_cases hi : Number.isWritable i = true
  · rw [obstacle?, if_pos hi] at h
    cases h
  · rw [obstacle?, if_neg hi] at h
    cases h
    exact ⟨_, .whole, .integer (Bool.eq_false_iff.2 hi)⟩

theorem hasObstacle_node {n : Node} {obstacle : ValueFailure}
    (h : (node n).obstacle? = some obstacle) :
    (node n).HasObstacle obstacle := by
  by_cases hn : n.isWritable = true
  · rw [obstacle?, if_pos hn] at h
    cases h
  · rw [obstacle?, if_neg hn] at h
    cases h
    exact ⟨_, .whole, .node (Bool.eq_false_iff.2 hn)⟩

theorem hasObstacle_foreign {kind : Foreign} {obstacle : ValueFailure}
    (h : (foreign kind).obstacle? = some obstacle) :
    (foreign kind).HasObstacle obstacle := by
  cases kind with
  | object type shown =>
      cases shown with
      | ok => cases h
      | error failure =>
          cases h
          exact ⟨_, .whole, .object type failure⟩
  | _ => cases h

-- One statement for each of the functions that look for an obstacle, along
-- their recursion.
mutual

/-- The failure to show a value is that of a part of it. -/
theorem hasObstacle_of_obstacle? {obstacle : ValueFailure} :
    ∀ v : Value, v.obstacle? = some obstacle → v.HasObstacle obstacle
  | .integer _ => hasObstacle_integer
  | .node _ => hasObstacle_node
  | .foreign _ => hasObstacle_foreign
  | .list items | .tuple items => fun h => by
    obtain ⟨item, hitem, hobstacle⟩ := hasObstacle_of_obstacleAmong? items h
    exact hobstacle.item rfl hitem
  | .dict entries | .mapping entries => fun h => by
    obtain ⟨k, content, hentry, hk | hcontent⟩ :=
      hasObstacle_of_obstacleWithin? entries h
    · exact hk.key rfl hentry
    · exact hcontent.content rfl hentry
  | .null | .boolean _ | .number _ | .text _ | .bytes _ => fun h => nomatch h

theorem hasObstacle_of_obstacleAmong? {obstacle : ValueFailure} :
    ∀ items : List Value, obstacleAmong? items = some obstacle →
      ∃ item ∈ items, item.HasObstacle obstacle
  | item :: rest, h => by
    rw [obstacleAmong?, Option.or_eq_some_iff] at h
    rcases h with hitem | ⟨-, hrest⟩
    · exact ⟨item, List.mem_cons_self, hasObstacle_of_obstacle? item hitem⟩
    · obtain ⟨other, hmem, hother⟩ := hasObstacle_of_obstacleAmong? rest hrest
      exact ⟨other, List.mem_cons_of_mem item hmem, hother⟩

theorem hasObstacle_of_obstacleWithin? {obstacle : ValueFailure} :
    ∀ entries : List (Value × Value), obstacleWithin? entries = some obstacle →
      ∃ k content, (k, content) ∈ entries ∧
        (k.HasObstacle obstacle ∨ content.HasObstacle obstacle)
  | (k, content) :: rest, h => by
    rw [obstacleWithin?, Option.or_eq_some_iff, Option.or_eq_some_iff] at h
    rcases h with hk | ⟨-, hcontent | ⟨-, hrest⟩⟩
    · exact ⟨k, content, List.mem_cons_self,
        .inl (hasObstacle_of_obstacle? k hk)⟩
    · exact ⟨k, content, List.mem_cons_self,
        .inr (hasObstacle_of_obstacle? content hcontent)⟩
    · obtain ⟨k', content', hmem, hother⟩ :=
        hasObstacle_of_obstacleWithin? rest hrest
      exact ⟨k', content', List.mem_cons_of_mem _ hmem, hother⟩

end

end Value
end IndexAccess
