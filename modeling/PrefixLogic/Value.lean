import PrefixLogic.Expr

/-!
# Values

An expression evaluates to a truth value, a primitive operator or a lambda. Each of them has an
expression that evaluates to it (`Value.toExpr`), and a value is written as that expression, if
there is room for that.
-/

namespace PrefixLogic

/-- A value. A lambda keeps its parameters and its body, and nothing of where it was written. -/
inductive Value where
  | bool (value : Bool)
  | op (op : Operator)
  | lambda (params : List String) (body : Expr)
  deriving DecidableEq, Repr

namespace Value

/-- The expression that stands for a value. -/
def toExpr : Value → Expr
  | bool value => .bool value
  | op o => .op o
  | lambda params body => .lambda params body

/-- The source text of a value. -/
def text (value : Value) : String := value.toExpr.text

/-- The cells that a value takes while it is written. The expression of a lambda is made first, and
is written inside it. -/
def cells (value : Value) : Nat :=
  match value with
  | bool _ | op _ => value.toExpr.cells
  | lambda _ _ => 2 + value.toExpr.cells

/-- Writes a value, if there is room for that. -/
def write (room : Room) (value : Value) : Option String :=
  if room.holds value.cells then some value.text else none

end Value

end PrefixLogic
