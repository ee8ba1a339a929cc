import PrefixLogic.Environment
import PrefixLogic.Evaluation.Place
import PrefixLogic.Evaluation.Trace

/-!
# Evaluation

Evaluation threads one state through an expression: the environment, the number of calls that are
active, the greatest number that were active at a time, and the trace. All of it is kept when
evaluation stops with an error. Operands and arguments are evaluated from left to right.

Scoping is dynamic: the body of a lambda runs in the environment of the call, extended by a scope
for the parameters, which is dropped when the call ends.

Three things are limited: the number of calls active at a time, if a limit is given; the room in
which expressions wait for those inside them; and the number of expressions under evaluation inside
one another, on which `Evaluation.eval` recurs. Each of them takes a cell of room at least, so where
room is limited, a nesting of as many expressions as there are cells is no limit of its own.

What is written during evaluation, that is, an event that is recorded or a value that an error
quotes, takes room as well. So where room is limited, a run may stop because it is traced.
-/

namespace PrefixLogic

/-- What is fixed during a run. -/
structure Config where
  /-- How many calls may be active at a time; none, if the limit is negative. -/
  maxDepth : Option Int := some 100
  /-- How much is traced; nothing unless positive. -/
  verbosity : Int := 0
  /-- How many expressions may be under evaluation inside one another. -/
  nesting : Nat := roomCells
  /-- The room in which they wait for one another. -/
  room : Room := some roomCells
  deriving DecidableEq, Repr

namespace Evaluation

/-- What evaluation changes as it goes: the environment, the number of active calls and its
greatest value so far, and the events, of which the newest is the last one. -/
structure State where
  env : Env
  depth : Nat
  peak : Nat
  events : Array Event

/-- The state in which the evaluation of an expression begins. -/
def State.start (env : Env) : State := ⟨env, 0, 0, #[]⟩

/-- The state inside a further call. -/
def State.enter (state : State) (frame : Scope) : State :=
  { state with
    env := state.env.enter frame
    depth := state.depth + 1
    peak := max state.peak (state.depth + 1) }

/-- The state when the innermost call is over. -/
def State.leave (state : State) : State :=
  { state with env := state.env.leave, depth := state.depth - 1 }

/-- A step of evaluation: from a state to a value or an error, and a state either way. -/
abbrev Run := EStateM EvalError State

/-- Records an event, if the verbosity asks for it. There must be room to write it then. -/
def record (config : Config) (room : Room) (event : Event) : Run Unit :=
  if event.isRecorded config.verbosity then
    if room.holds event.cells then
      modify fun state => { state with events := state.events.push event }
    else throw .nesting
  else return

/-- The value of a name. -/
def lookup (name : String) : Run Value := do
  match (← get).env.get? name with
  | some value => return value
  | none => throw (.notDefined name)

/-- Binds a name in the innermost scope. -/
def define (name : String) (value : Value) : Run Unit :=
  modify fun state => { state with env := state.env.insert name value }

/-- Refuses a further call when as many are active as may be. -/
def checkDepth (config : Config) : Run Unit := do
  match config.maxDepth with
  | none => return
  | some limit => if ((← get).depth : Int) < limit then return else throw (.callDepth limit)

/-- Runs the body of a call in a scope of its own. The scope is dropped and the call is over
however the body ends. -/
def within (frame : Scope) (body : Run Value) : Run Value := fun state =>
  match body (state.enter frame) with
  | .ok value state => .ok value state.leave
  | .error error state => .error error state.leave

/-- Evaluates an operand of an operator, which must be a truth value. -/
def truth (room : Room) (eval : Expr → Run Value) (op : Operator) (operand : Expr) : Run Bool := do
  match ← eval operand with
  | .bool value => return value
  | value => throw ((EvalError.operandNotBool op value).within room)

/-- Refuses a negation of several operands or of none, before any of them is evaluated. -/
def checkOperandCount : Operator → List Expr → Run Unit
  | .not, operands =>
    if operands.length = 1 then return else throw (.negationCount operands.length)
  | .and, _ | .or, _ => return

/-- Applies an operator to operands. All of them are evaluated, whatever their values. -/
def applyOperator (room : Room) (eval : Place → Expr → Run Value) (op : Operator)
    (operands : List Expr) : Run Value := do
  checkOperandCount op operands
  let values ← operands.mapM (truth (room.inside (.operand op)) (eval (.operand op)) op)
  return .bool (op.combine values)

/-- Refuses a call that has not one operand for each parameter. -/
def checkArgumentCount (params : List String) (operands : List Expr) : Run Unit :=
  if operands.length = params.length then return
  else throw (.argumentCount params.length operands.length)

/-- Applies a lambda to operands. Their number is checked before they are evaluated, the call
depth after. -/
def applyLambda (config : Config) (room : Room) (eval : Place → Expr → Run Value)
    (params : List String) (body : Expr) (operands : List Expr) : Run Value := do
  checkArgumentCount params operands
  let arguments ← operands.mapM (eval .argument)
  checkDepth config
  record config (room.inside .body) (.called params body arguments)
  within (.ofList (params.zip arguments)) (eval .body body)

/-- Applies the value of the operator of a call to the operands. -/
def apply (config : Config) (room : Room) (eval : Place → Expr → Run Value) (operator : Value)
    (operands : List Expr) : Run Value :=
  match operator with
  | .op op => applyOperator room eval op operands
  | .lambda params body => applyLambda config room eval params body operands
  | .bool value => throw ((EvalError.notOperator (.bool value)).within (room.inside .operator))

/-- Chooses a branch by the value of a condition, and evaluates that branch only. -/
def choose (config : Config) (room : Room) (eval : Place → Expr → Run Value) (test : Expr)
    (value : Value) (yes no : Expr) : Run Value :=
  match value with
  | .bool truth => do
    record config (room.inside .branch) (.decided test truth)
    eval .branch (if truth then yes else no)
  | value => throw ((EvalError.conditionNotBool value).within (room.inside .test))

/-- The rule for each form of expression, given the room for it and how the expressions inside it
are evaluated. -/
def rule (config : Config) (room : Room) (eval : Place → Expr → Run Value) : Expr → Run Value
  | .bool value => return .bool value
  | .op op => return .op op
  | .lambda params body => return .lambda params body
  | .ident name => lookup name
  | .call operator operands => do
    -- the operator is a value like any other, found before the operands
    apply config room eval (← eval .operator operator) operands
  | .cond test yes no => do
    choose config room eval test (← eval .test test) yes no
  | .define name body => do
    let value ← eval .definition body
    define name value
    record config (room.inside .definition) (.defined name value)
    return value
  | .hole => throw .noRule

/-- Evaluates an expression in a room. At most `nesting - 1` further ones may be under evaluation
inside it. -/
def eval (config : Config) : (nesting : Nat) → (room : Room) → Expr → Run Value
  | 0, _, _ => throw .nesting
  | nesting + 1, room, expr =>
    if room.isUsedUp then throw .nesting
    else do
      -- the expression itself takes a cell already
      record config (room.less 1) (.visited expr)
      rule config room (fun place => eval config nesting (room.inside place)) expr

end Evaluation

/-- How a run ended: a value or a reason why there is none, the environment that it left, and
what was traced. -/
structure Outcome (ε : Type) where
  result : Except ε Value
  env : Env
  trace : Trace

/-- Evaluates an expression in an environment. -/
def Expr.evaluate (config : Config) (expr : Expr) (env : Env) : Outcome EvalError :=
  match Evaluation.eval config config.nesting config.room expr (.start env) with
  | .ok value state => ⟨.ok value, state.env, state.events.toList⟩
  | .error error state => ⟨.error error, state.env, state.events.toList⟩

end PrefixLogic
