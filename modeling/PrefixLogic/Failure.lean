import PrefixLogic.Token
import PrefixLogic.Expr.ParseError
import PrefixLogic.Evaluation.EvalError

/-!
# Failures

A source passes three stages: it is cut into tokens, read as an expression, and evaluated. A failure
says at which stage it stopped and why. After the last stage the value is written, and there may be
no room for that. This and the lack of an evaluation rule are faults: they are no reports on a
source, and nobody is told about them.
-/

namespace PrefixLogic

/-- Why a run gives back no value, by the stage at which it stopped. -/
inductive Failure where
  | tokenize (error : TokenizeError)
  | parse (error : ParseError)
  | evaluate (error : EvalError)
  | write (value : Value)
  deriving DecidableEq, Repr

namespace Failure

/-- The name of the stage. -/
def stage : Failure → String
  | tokenize _ => "tokenize"
  | parse _ => "parse"
  | evaluate _ => "evaluate"
  | write _ => "write"

/-- The name of the kind of failure. -/
def kind : Failure → String
  | tokenize _ => "TokenizeError"
  | parse _ => "ParseError"
  | evaluate _ => "EvalError"
  | write _ => "RecursionError"

/-- What went wrong, without the stage. -/
def message : Failure → String
  | tokenize error => error.message
  | parse error => error.message
  | evaluate error => error.message
  | write _ => EvalError.nesting.message

/-- Whether a failure is told to the user, and is not a fault. -/
def isTold : Failure → Bool
  | write _ | evaluate .noRule => false
  | tokenize _ | parse _ | evaluate _ => true

/-- What is not told: that a value cannot be written, and that an expression has no rule. -/
theorem isTold_eq_false_iff {failure : Failure} :
    failure.isTold = false ↔ (∃ value, failure = write value) ∨ failure = evaluate .noRule := by
  cases failure with
  | evaluate reason => cases reason <;> simp [isTold]
  | _ => simp [isTold]

/-- The kind of a failure and what went wrong. -/
def text (failure : Failure) : String := failure.kind ++ ": " ++ failure.message

/-- The line that reports a failure to the user. -/
def report (failure : Failure) : String := "Failed to " ++ failure.stage ++ ": " ++ failure.message

end Failure

end PrefixLogic
