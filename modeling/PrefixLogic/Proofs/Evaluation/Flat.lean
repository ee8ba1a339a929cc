import PrefixLogic.Proofs.Environment.Flattening
import PrefixLogic.Proofs.Evaluation.Frame

/-!
# Evaluation over one map

The reference for evaluation keeps a single finite map from names to values (`Flat.eval`). There
are no scopes in it: a call evaluates its body from the map overridden by the parameters, and goes
on from the map that it had. Evaluation over a chain of scopes ends as the reference does, from the
map of what the chain shows, and leaves a chain that shows the map of the reference
(`Flat.eval_refines`).
-/

namespace PrefixLogic.Flat

open Evaluation (State Place ending ending_bind Keeps Simulates Framed)

/-! ## The reference -/

/-- A step of the reference: from a map to a value or an error, and a map either way. -/
abbrev Run := EStateM EvalError FlatMap

/-- The value of a name. -/
def lookup (name : String) : Run Value := do
  match (← get).lookup name with
  | some value => return value
  | none => throw (.notDefined name)

/-- The truth value that an operand must have. -/
def truth (op : Operator) : Value → Run Bool
  | .bool value => return value
  | value => throw (.operandNotBool op value)

/-- Refuses a further call when as many are active as may be. -/
def checkDepth (limit : Option Int) (depth : Nat) : Run Unit :=
  match limit with
  | none => return
  | some limit => if limit ≤ depth then throw (.callDepth limit) else return

/-- Runs a body from the map overridden by some bindings, and drops the map in which it ends. -/
def within (bindings : List (String × Value)) (body : Run Value) : Run Value := fun map =>
  match body (map.override bindings) with
  | .ok value _ => .ok value map
  | .error error _ => .error error map

/-- Applies an operator to operands, given how expressions are evaluated. -/
def applyOperator (eval : Expr → Run Value) (op : Operator) (operands : List Expr) : Run Value :=
  if op = .not ∧ operands.length ≠ 1 then throw (.negationCount operands.length)
  else do
    let values ← operands.mapM fun operand => do truth op (← eval operand)
    return .bool (op.combine values)

/-- Applies a lambda to operands, given how expressions are evaluated at each call depth. -/
def applyLambda (limit : Option Int) (eval : Nat → Expr → Run Value) (depth : Nat)
    (params : List String) (body : Expr) (operands : List Expr) : Run Value :=
  if operands.length ≠ params.length then
    throw (.argumentCount params.length operands.length)
  else do
    let arguments ← operands.mapM (eval depth)
    checkDepth limit depth
    within (params.zip arguments) (eval (depth + 1) body)

/-- Applies a value to operands. -/
def apply (limit : Option Int) (eval : Nat → Expr → Run Value) (depth : Nat)
    (operands : List Expr) : Value → Run Value
  | .bool value => throw (.notOperator (.bool value))
  | .op op => applyOperator (eval depth) op operands
  | .lambda params body => applyLambda limit eval depth params body operands

/-- The rule for each form of expression. -/
def rule (limit : Option Int) (eval : Nat → Expr → Run Value) (depth : Nat) : Expr → Run Value
  | .bool value => return .bool value
  | .op op => return .op op
  | .lambda params body => return .lambda params body
  | .hole => throw .noRule
  | .ident name => lookup name
  | .call operator operands => do apply limit eval depth operands (← eval depth operator)
  | .cond test yes no => do
    match ← eval depth test with
    | .bool true => eval depth yes
    | .bool false => eval depth no
    | value => throw (.conditionNotBool value)
  | .define name body => do
    let value ← eval depth body
    modify fun map => map.insert name value
    return value

/-- Evaluates an expression when some calls are active. At most `fuel - 1` further expressions may
be under evaluation inside it. -/
def eval (limit : Option Int) : (fuel : Nat) → (depth : Nat) → Expr → Run Value
  | 0, _, _ => throw .nesting
  | fuel + 1, depth, expr => rule limit (eval limit fuel) depth expr

theorem ending_lookup (name : String) (map : FlatMap) :
    ending (lookup name) map =
      (match map.lookup name with
        | some value => .ok value
        | none => .error (.notDefined name), map) := by
  change ending (match map.lookup name with
    | some value => pure value
    | none => throw (EvalError.notDefined name) : Run Value) map = _
  cases map.lookup name <;> rfl

theorem ending_within (bindings : List (String × Value)) (body : Run Value) (map : FlatMap) :
    ending (within bindings body) map = ((ending body (map.override bindings)).1, map) := by
  unfold ending within
  cases body (map.override bindings) <;> rfl

/-! ## The simulation -/

/-- A state of an evaluation and a map of the reference agree when so many calls are active, and
the environment shows the map. -/
structure Agrees (depth : Nat) (state : State) (map : FlatMap) : Prop where
  depth_eq : state.depth = depth
  lookup_eq : ∀ name, map.lookup name = state.env.get? name

/-- Runs of evaluation and of the reference that end alike, unless evaluation has no room left. -/
abbrev Matches {α : Type} (depth : Nat) (run : Evaluation.Run α) (flat : Run α) : Prop :=
  Simulates (· = .nesting) (Agrees depth) run flat

variable {config : Config} {depth : Nat}

/-- The reference records nothing. -/
theorem matches_record {α : Type} {room : Room} {event : Event} {rest : Unit → Evaluation.Run α}
    {flat : Run α} (h : Matches depth (rest ()) flat) :
    Matches depth (Evaluation.record config room event >>= rest) flat := by
  apply Simulates.pass () ?_ h
  intro state map hagrees
  rw [Evaluation.ending_record]
  split
  · exact .inl ⟨_, rfl, hagrees.depth_eq, hagrees.lookup_eq⟩
  · exact .inr ⟨_, _, rfl, rfl⟩

/-- The reference has room for every wording. -/
theorem matches_throw_within {α : Type} (room : Room) (reason : EvalError) :
    Matches (α := α) depth (throw (reason.within room)) (throw reason) := by
  rw [EvalError.within]
  split
  · exact .throw reason
  · exact .stop rfl

theorem matches_lookup (name : String) : Matches depth (Evaluation.lookup name) (lookup name) := by
  intro state map hagrees
  rw [Evaluation.ending_lookup, ending_lookup, hagrees.lookup_eq]
  exact .same _ hagrees

theorem matches_define (name : String) (value : Value) :
    Matches depth (Evaluation.define name value) (modify fun map => map.insert name value) := by
  intro state map hagrees
  rw [Evaluation.ending_define]
  refine .same (.ok ()) ⟨hagrees.depth_eq, ?_⟩
  intro x
  rw [FlatMap.lookup_insert, hagrees.lookup_eq]
  exact (Env.get?_insert state.env name value x).symm

theorem matches_checkDepth :
    Matches depth (Evaluation.checkDepth config) (checkDepth config.maxDepth depth) := by
  intro state map hagrees
  rw [Evaluation.ending_checkDepth, hagrees.depth_eq]
  cases config.maxDepth with
  | none => exact .same _ hagrees
  | some limit =>
      rw [checkDepth]
      dsimp only
      by_cases h : (depth : Int) < limit
      · rw [if_pos h, if_neg (by omega)]
        exact .same _ hagrees
      · rw [if_neg h, if_pos (by omega)]
        exact .same _ hagrees

/-- The body of a call begins with a scope of the bindings around the environment of the call, and
leaves that environment behind. -/
theorem matches_within {names : List String} {body : Evaluation.Run Value} {flat : Run Value}
    (hkeeps : Keeps (Framed names) body) (h : Matches (depth + 1) body flat)
    (bindings : List (String × Value)) :
    Matches depth (Evaluation.within (.ofList bindings) body) (within bindings flat) := by
  intro state map hagrees
  have hinside : Agrees (depth + 1) (state.enter (.ofList bindings)) (map.override bindings) :=
    ⟨congrArg (· + 1) hagrees.depth_eq,
      FlatMap.lookup_override_enter hagrees.lookup_eq bindings⟩
  have hbody := h _ _ hinside
  obtain ⟨henv, hdepth⟩ := (hkeeps (state.enter (.ofList bindings))).leave
  rw [Evaluation.ending_within, ending_within]
  generalize ending body _ = ends, ending flat _ = ends' at hbody henv hdepth ⊢
  cases hbody with
  | same result _ =>
      -- both go on from what they had before the call, whatever the body left
      refine .same result ⟨hdepth.trans hagrees.depth_eq, ?_⟩
      intro name
      rw [henv, hagrees.lookup_eq]
  | stop _ hstop => exact .stop _ hstop

section

variable {room : Room} {eval : Place → Expr → Evaluation.Run Value}
  {flat : Nat → Expr → Run Value}

theorem matches_truth {place : Place} {operand : Expr}
    (h : Matches depth (eval place operand) (flat depth operand)) (op : Operator) :
    Matches depth (Evaluation.truth room (eval place) op operand)
      (do truth op (← flat depth operand)) := by
  apply Simulates.bind h
  intro value
  cases value with
  | bool value => exact .pure value
  | op op => exact matches_throw_within room _
  | lambda params body => exact matches_throw_within room _

theorem matches_applyOperator
    (heval : ∀ place expr, Matches depth (eval place expr) (flat depth expr))
    (op : Operator) (operands : List Expr) :
    Matches depth (Evaluation.applyOperator room eval op operands)
      (applyOperator (flat depth) op operands) := by
  have hvalues : Matches depth
      (do
        let values ← operands.mapM
          (Evaluation.truth (room.inside (.operand op)) (eval (.operand op)) op)
        return Value.bool (op.combine values))
      (do
        let values ← operands.mapM fun operand => do truth op (← flat depth operand)
        return Value.bool (op.combine values)) := by
    apply Simulates.bind (.mapM operands fun operand _ => matches_truth (heval _ operand) op)
    intro values
    exact .pure _
  rw [Evaluation.applyOperator, applyOperator]
  cases op with
  | not =>
      rw [Evaluation.checkOperandCount]
      by_cases hcount : operands.length = 1
      · rw [if_pos hcount, if_neg fun h => h.2 hcount]
        exact hvalues
      · rw [if_neg hcount, if_pos ⟨rfl, hcount⟩]
        exact .throw _
  | and => exact hvalues
  | or => exact hvalues

theorem matches_applyLambda
    (hkeeps : ∀ place expr, Keeps (Framed expr.definedNames) (eval place expr))
    (heval : ∀ depth place expr, Matches depth (eval place expr) (flat depth expr))
    (params : List String) (body : Expr) (operands : List Expr) :
    Matches depth (Evaluation.applyLambda config room eval params body operands)
      (applyLambda config.maxDepth flat depth params body operands) := by
  rw [Evaluation.applyLambda, Evaluation.checkArgumentCount, applyLambda]
  by_cases hcount : operands.length = params.length
  · rw [if_pos hcount, if_neg (not_not.2 hcount)]
    apply Simulates.bind (.mapM operands fun operand _ => heval depth _ operand)
    intro arguments
    apply Simulates.bind matches_checkDepth
    intro _
    apply matches_record
    exact matches_within (hkeeps .body body) (heval (depth + 1) .body body) _
  · rw [if_neg hcount, if_pos hcount]
    exact .throw _

theorem matches_apply (hkeeps : ∀ place expr, Keeps (Framed expr.definedNames) (eval place expr))
    (heval : ∀ depth place expr, Matches depth (eval place expr) (flat depth expr))
    (operands : List Expr) (operator : Value) :
    Matches depth (Evaluation.apply config room eval operator operands)
      (apply config.maxDepth flat depth operands operator) := by
  cases operator with
  | bool value => exact matches_throw_within _ _
  | op op => exact matches_applyOperator (heval depth) op operands
  | lambda params body => exact matches_applyLambda hkeeps heval params body operands

theorem matches_rule (hkeeps : ∀ place expr, Keeps (Framed expr.definedNames) (eval place expr))
    (heval : ∀ depth place expr, Matches depth (eval place expr) (flat depth expr)) (expr : Expr) :
    Matches depth (Evaluation.rule config room eval expr)
      (rule config.maxDepth flat depth expr) := by
  cases expr with
  | bool value => exact .pure _
  | op op => exact .pure _
  | lambda params body => exact .pure _
  | hole => exact .throw _
  | ident name => exact matches_lookup name
  | call operator operands =>
      apply Simulates.bind (heval depth _ operator)
      intro value
      exact matches_apply hkeeps heval operands value
  | cond test yes no =>
      apply Simulates.bind (heval depth _ test)
      intro value
      cases value with
      | bool value =>
          apply matches_record
          cases value with
          | true => exact heval depth _ yes
          | false => exact heval depth _ no
      | op op => exact matches_throw_within _ _
      | lambda params body => exact matches_throw_within _ _
  | define name body =>
      apply Simulates.bind (heval depth _ body)
      intro value
      apply Simulates.bind (matches_define name value)
      intro _
      exact matches_record (.pure value)

end

/-- Evaluation simulates the reference, from a chain of scopes and a map that agree. -/
theorem matches_eval (config : Config) (nesting : Nat) (room : Room) {fuel : Nat}
    (hfuel : nesting ≤ fuel) (depth : Nat) (expr : Expr) :
    Matches depth (Evaluation.eval config nesting room expr)
      (eval config.maxDepth fuel depth expr) := by
  induction nesting generalizing room fuel depth expr with
  | zero => exact .stop rfl
  | succ nesting ih =>
      cases fuel with
      | zero => omega
      | succ fuel =>
          rw [Evaluation.eval]
          split
          · exact .stop rfl
          · apply matches_record
            apply matches_rule
            · intro place expr
              exact Evaluation.keeps_eval config nesting _ expr
            · intro depth place expr
              exact ih _ (by omega) depth expr

/-- Evaluation over a chain of scopes that does not run out of room ends as the reference does from
the map of what the chain shows, with the same value or the same error, and leaves a chain that
shows the map that the reference leaves. -/
theorem eval_refines (config : Config) (nesting : Nat) (room : Room) (expr : Expr) (state : State)
    (hroom : (ending (Evaluation.eval config nesting room expr) state).1 ≠ .error .nesting)
    (fuel : Nat) (hfuel : nesting ≤ fuel) :
    (∀ name, state.env.flatten.lookup name = state.env.get? name) ∧
    ∃ map, ending (eval config.maxDepth fuel state.depth expr) state.env.flatten =
        ((ending (Evaluation.eval config nesting room expr) state).1, map) ∧
      ∀ name, map.lookup name =
        (ending (Evaluation.eval config nesting room expr) state).2.env.get? name := by
  have hshows := Env.lookup_flatten state.env
  have hagrees : Agrees state.depth state state.env.flatten := ⟨rfl, hshows⟩
  have hends := matches_eval config nesting room hfuel state.depth expr _ _ hagrees
  refine ⟨hshows, ?_⟩
  generalize ending (Evaluation.eval config nesting room expr) state = ends at hroom hends ⊢
  generalize ending (eval config.maxDepth fuel state.depth expr) state.env.flatten = ends'
    at hends ⊢
  cases hends with
  | same result hafter => exact ⟨_, rfl, hafter.lookup_eq⟩
  | stop _ hstop => exact absurd (congrArg _ hstop) hroom

/-- A call that shadows a name twice, defines one in its body, and sees the name that an argument
defines. -/
theorem eval_refines_call :
    let state : State := .start ⟨.ofList [("y", .bool false)], [.ofList [("z", .op .and)]]⟩
    let expr : Expr := .call
      (.lambda ["x", "x"] (.call (.op .and) [.ident "x", .define "y" (.bool true), .ident "z"]))
      [.bool false, .define "z" (.bool true)]
    ∃ map, ending (eval (some 1) 9 0 expr) state.env.flatten = (.ok (.bool true), map) ∧
      map.lookup "x" = none ∧ map.lookup "y" = some (.bool false) ∧
      map.lookup "z" = some (.bool true) := by
  intro state expr
  let config : Config := { maxDepth := some 1 }
  have hresult :
      (ending (Evaluation.eval config 5 (some 15) expr) state).1 = .ok (.bool true) := rfl
  obtain ⟨-, map, hends, hmap⟩ :=
    eval_refines config 5 (some 15) expr state (by rw [hresult]; nofun) 9 (by decide)
  rw [hresult] at hends
  refine ⟨map, hends, ?_, ?_, ?_⟩
  · rw [hmap]
    rfl
  · rw [hmap]
    rfl
  · rw [hmap]
    rfl

end PrefixLogic.Flat
