/-!
# Logical operators

The three primitive operators of the language, each written with one sign.
-/

namespace PrefixLogic

/-- A primitive operator. -/
inductive Operator where
  | and
  | or
  | not
  deriving DecidableEq, Repr

namespace Operator

/-- The sign of an operator. -/
def sign : Operator → String
  | and => "&"
  | or => "|"
  | not => "^"

/-- The truth value of a conjunction or disjunction, of any number of operands; for the negation,
whether no operand is true. -/
def combine : Operator → List Bool → Bool
  | and, values => values.all id
  | or, values => values.any id
  | not, values => !values.any id

end Operator

end PrefixLogic
