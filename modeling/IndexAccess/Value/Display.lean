import IndexAccess.Failure

/-!
# Showing values

A value is shown part by part, from left to right, a key before its item.  An
integer beyond the digit limit cannot be shown, nor can an object whose class
fails to show it.  The first such part keeps the whole value from being shown,
with its own failure.
-/

namespace IndexAccess
namespace Value

mutual

/-- The failure of the first part of a value that cannot be shown. -/
def obstacle? : Value → Option ValueFailure
  | integer i => if Number.isWritable i then none else some .integerTooLong
  | list items | tuple items => obstacleAmong? items
  | dict entries | mapping entries => obstacleWithin? entries
  | foreign (.object _ (.error raised)) => some (.raised raised)
  | node n => if n.isWritable then none else some .integerTooLong
  | _ => none

def obstacleAmong? : List Value → Option ValueFailure
  | [] => none
  | item :: rest => (obstacle? item).or (obstacleAmong? rest)

def obstacleWithin? : List (Value × Value) → Option ValueFailure
  | [] => none
  | (key, item) :: rest =>
    (obstacle? key).or ((obstacle? item).or (obstacleWithin? rest))

end

/-- A value as it is shown in a message, if all of it can be shown. -/
def display (v : Value) : Except Failure String :=
  match v.obstacle? with
  | none => .ok v.shown
  | some obstacle => .error (.value obstacle)

theorem display_of_no_obstacle {v : Value} (h : v.obstacle? = none) :
    v.display = .ok v.shown := by
  rw [display, h]

theorem display_of_obstacle {v : Value} {obstacle : ValueFailure}
    (h : v.obstacle? = some obstacle) :
    v.display = .error (.value obstacle) := by
  rw [display, h]

end Value
end IndexAccess
