import PrefixLogic.Operator
import PrefixLogic.Room

/-!
# The room of evaluation

An expression under evaluation waits for the expressions inside it. How many cells it takes depends
on the place of the inner expression, that is, on what is being done with the outer one.
-/

namespace PrefixLogic

namespace Evaluation

/-- Where an expression stands in the one that waits for its value. A body stands in the call that
runs it. -/
inductive Place where
  | operator
  | operand (op : Operator)
  | argument
  | body
  | test
  | branch
  | definition
  deriving DecidableEq, Repr

/-- The cells that an expression takes while it waits for one at a place inside it: one for itself,
one more for a call, one for the application of the operator of the call, one for a list of values
that is being made, and one for the check that a value is a truth value. -/
def Place.cells : Place → Nat
  | test | branch | definition => 1
  | operator => 2
  | body => 3
  | argument | operand .not => 4
  | operand .and | operand .or => 5

end Evaluation

/-- What is left of the room for an expression at a place inside another one. -/
def Room.inside (room : Room) (place : Evaluation.Place) : Room := room.less place.cells

@[simp] theorem Room.inside_none (place : Evaluation.Place) : Room.inside none place = none := rfl

end PrefixLogic
