import PrefixLogic.Operator
import PrefixLogic.Room

/-!
# Expressions

The trees of the language. Trees that are read from a source have identifiers as names; a tree
made by hand may hold any text as a name, and it may hold holes, which stand for no expression
and have no evaluation rule. `Expr.text` is a tree as source, with the names glued in as they are,
and `Expr.write` says whether there is room to write it. Equality of trees is decidable
(`Expr.eqv_iff`).
-/

namespace PrefixLogic

/-- An expression. -/
inductive Expr where
  | bool (value : Bool)
  | op (op : Operator)
  | call (operator : Expr) (operands : List Expr)
  | cond (test yes no : Expr)
  | define (name : String) (body : Expr)
  | lambda (params : List String) (body : Expr)
  | ident (name : String)
  | hole
  deriving Repr

namespace Expr

/-! ## Source text -/

/-- The source text of a truth value. -/
def boolText (value : Bool) : String := if value then "T" else "F"

mutual

/-- The source text of an expression. -/
def text : Expr → String
  | bool value => boolText value
  | op o => o.sign
  | call operator operands => "(" ++ operator.text ++ operandsText operands ++ ")"
  | cond test yes no => "(if " ++ test.text ++ " " ++ yes.text ++ " " ++ no.text ++ ")"
  | define name body => "(def " ++ name ++ " " ++ body.text ++ ")"
  | lambda params body => "(lambda (" ++ " ".intercalate params ++ ") " ++ body.text ++ ")"
  | ident name => name
  | hole => "Node()"

/-- The source text of the operands of a call, each after a space. -/
def operandsText : List Expr → String
  | [] => ""
  | operand :: rest => " " ++ operand.text ++ operandsText rest

end

/-! ## Writing -/

mutual

/-- The cells that an expression takes while it is written. A form takes two, one more for a part
that is glued in, and one more for the list of its operands. The sign of an operator is looked up.
-/
def cells : Expr → Nat
  | bool _ | ident _ => 2
  | hole => 3
  | op _ => 6
  | call operator operands => 2 + max operator.cells (operandsCells operands)
  | cond test yes no => 3 + max test.cells (max yes.cells no.cells)
  | define _ body | lambda _ body => 3 + body.cells

/-- The cells that the operands of a call take. -/
def operandsCells : List Expr → Nat
  | [] => 0
  | operand :: rest => max (operand.cells + 1) (operandsCells rest)

end

/-- Writes an expression, if there is room for that. -/
def write (room : Room) (expr : Expr) : Option String :=
  if room.holds expr.cells then some expr.text else none

theorem write_eq_some_iff {room : Room} {expr : Expr} {text : String} :
    expr.write room = some text ↔ room.holds expr.cells = true ∧ expr.text = text := by
  rw [write]
  split
  next h => simp [h]
  next h => simp [h]

/-! ## Equality -/

mutual

/-- Whether two expressions are the same tree. -/
def eqv : Expr → Expr → Bool
  | bool a, bool b => a == b
  | op a, op b => a == b
  | call f xs, call g ys => f.eqv g && eqvAll xs ys
  | cond a b c, cond a' b' c' => a.eqv a' && b.eqv b' && c.eqv c'
  | define x a, define y b => x == y && a.eqv b
  | lambda xs a, lambda ys b => xs == ys && a.eqv b
  | ident x, ident y => x == y
  | hole, hole => true
  | _, _ => false

/-- Whether two lists of expressions are the same, tree by tree. -/
def eqvAll : List Expr → List Expr → Bool
  | [], [] => true
  | x :: xs, y :: ys => x.eqv y && eqvAll xs ys
  | _, _ => false

end

mutual

theorem eqv_iff : (a b : Expr) → (a.eqv b = true ↔ a = b)
  | bool _, b => by cases b <;> simp [eqv]
  | op _, b => by cases b <;> simp [eqv]
  | call f xs, b => by cases b <;> simp [eqv, eqv_iff f, eqvAll_iff xs]
  | cond x y z, b => by cases b <;> simp [eqv, eqv_iff x, eqv_iff y, eqv_iff z, and_assoc]
  | define _ e, b => by cases b <;> simp [eqv, eqv_iff e]
  | lambda _ e, b => by cases b <;> simp [eqv, eqv_iff e]
  | ident _, b => by cases b <;> simp [eqv]
  | hole, b => by cases b <;> simp [eqv]

theorem eqvAll_iff : (xs ys : List Expr) → (eqvAll xs ys = true ↔ xs = ys)
  | [], ys => by cases ys <;> simp [eqvAll]
  | x :: xs, ys => by cases ys <;> simp [eqvAll, eqv_iff x, eqvAll_iff xs]

end

instance : DecidableEq Expr := fun a b => decidable_of_iff _ (eqv_iff a b)

end Expr

end PrefixLogic
