import PrefixLogic.Value
import PrefixLogic.Text.Quoted

/-!
# Why an expression has no value

The causes for which evaluation stops without a value, and their wording. The wording may quote a
value. If there is no room to write that, then the cause is the lack of room.
-/

namespace PrefixLogic

/-- A cause for which evaluation stops. The last one belongs to holes, which no source has. -/
inductive EvalError where
  | notDefined (name : String)
  | notOperator (value : Value)
  | conditionNotBool (value : Value)
  | operandNotBool (op : Operator) (value : Value)
  | negationCount (given : Nat)
  | argumentCount (expected given : Nat)
  | callDepth (limit : Int)
  | nesting
  | noRule
  deriving DecidableEq, Repr

open Text (backquoted)

namespace EvalError

/-- The wording of a cause. -/
def message : EvalError → String
  | notDefined name => backquoted name ++ " is not defined"
  | notOperator value => backquoted value.text ++ " is not an operator"
  | conditionNotBool value => "condition must be bool, not " ++ backquoted value.text
  | operandNotBool op value =>
    "operand of " ++ backquoted op.sign ++ " must be bool, not " ++ backquoted value.text
  | negationCount given =>
    "the number of arguments of " ++ backquoted Operator.not.sign ++ " must be 1, got " ++
      given.repr
  | argumentCount expected given =>
    "the number of arguments (" ++ given.repr ++ ") does not match the number of parameters (" ++
      expected.repr ++ ")"
  | callDepth limit => "maximum call depth (" ++ limit.repr ++ ") exceeded"
  | nesting => "maximum recursion depth exceeded"
  | noRule => "the expression has no evaluation rule"

/-- The cells that the wording takes. -/
def cells : EvalError → Nat
  | notOperator value | conditionNotBool value | operandNotBool _ value => value.cells + 1
  | notDefined _ | negationCount _ | argumentCount _ _ | callDepth _ | nesting | noRule => 0

/-- A cause as it comes out of a room. -/
def within (room : Room) (cause : EvalError) : EvalError :=
  if room.holds cause.cells then cause else nesting

@[simp] theorem within_none (cause : EvalError) : cause.within none = cause := rfl

end EvalError

end PrefixLogic
