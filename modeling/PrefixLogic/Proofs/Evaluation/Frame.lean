import PrefixLogic.Proofs.Environment.Growth
import PrefixLogic.Proofs.Environment.Sharing
import PrefixLogic.Proofs.Evaluation.Runs
import PrefixLogic.Session.Shared

/-!
# What evaluation leaves alone

An evaluation adds bindings to the innermost scope and changes nothing else
(`Evaluation.keeps_eval`): the names that the scope had stay in their places, and a binding is new
or different only under a name that the expression defines outside its lambdas
(`Expr.definedNames`). Definitions inside the bodies that are called go into the frames of the
calls and are dropped with them.

In a store of environments that share scopes, only the environment of the evaluation changes
(`Store.evaluate_frame`).
-/

namespace PrefixLogic

namespace Expr

mutual

/-- The names of the definitions in an expression that do not stand inside a lambda of it. -/
def definedNames : Expr → List String
  | bool _ | op _ | lambda _ _ | ident _ | hole => []
  | call operator operands => operator.definedNames ++ definedNamesAll operands
  | cond test yes no => test.definedNames ++ yes.definedNames ++ no.definedNames
  | define name body => name :: body.definedNames

/-- The names that one of the expressions defines. -/
def definedNamesAll : List Expr → List String
  | [] => []
  | expr :: rest => expr.definedNames ++ definedNamesAll rest

end

theorem definedNames_subset_all {expr : Expr} :
    ∀ {exprs : List Expr}, expr ∈ exprs → expr.definedNames ⊆ definedNamesAll exprs
  | head :: rest, h => by
      rw [definedNamesAll]
      rcases List.mem_cons.1 h with rfl | h
      · exact List.subset_append_left _ _
      · exact List.subset_append_of_subset_right _ (definedNames_subset_all h)

end Expr

namespace Evaluation

/-- The states before and after an evaluation that binds some names: as many calls are active, the
outer scopes are the same, and the innermost scope has grown by these names. -/
structure Framed (names : List String) (before after : State) : Prop where
  depth_eq : after.depth = before.depth
  outer_eq : after.env.outer = before.env.outer
  inner_grows : Scope.Grows names before.env.inner after.env.inner

variable {names more : List String}

instance : Std.Refl (Framed names) := ⟨fun state => ⟨rfl, rfl, .refl state.env.inner⟩⟩

instance : IsTrans State (Framed names) :=
  ⟨fun _ _ _ h h' => ⟨h'.depth_eq.trans h.depth_eq, h'.outer_eq.trans h.outer_eq,
    h.inner_grows.trans h'.inner_grows⟩⟩

theorem Framed.mono {before after : State} (h : Framed names before after) (hsub : names ⊆ more) :
    Framed more before after :=
  ⟨h.depth_eq, h.outer_eq, h.inner_grows.mono hsub⟩

theorem keeps_mono {α : Type} {run : Run α} (h : Keeps (Framed names) run) (hsub : names ⊆ more) :
    Keeps (Framed more) run := by
  intro state
  exact (h state).mono hsub

/-! ## The parts of an evaluation -/

variable {config : Config}

theorem keeps_record (room : Room) (event : Event) :
    Keeps (Framed names) (record config room event) := by
  intro state
  rw [ending_record]
  split
  · exact ⟨rfl, rfl, .refl state.env.inner⟩
  · exact ⟨rfl, rfl, .refl state.env.inner⟩

theorem keeps_define {name : String} (value : Value) (hname : name ∈ names) :
    Keeps (Framed names) (define name value) := by
  intro state
  rw [ending_define]
  exact ⟨rfl, rfl, .insert state.env.inner value hname⟩

theorem keeps_lookup (name : String) : Keeps (Framed names) (lookup name) :=
  .of_ending (ending_lookup name)

theorem keeps_checkDepth : Keeps (Framed names) (checkDepth config) :=
  .of_ending (ending_checkDepth config)

theorem keeps_checkOperandCount (op : Operator) (operands : List Expr) :
    Keeps (Framed names) (checkOperandCount op operands) :=
  .of_ending (ending_checkOperandCount op operands)

theorem keeps_checkArgumentCount (params : List String) (operands : List Expr) :
    Keeps (Framed names) (checkArgumentCount params operands) :=
  .of_ending (ending_checkArgumentCount params operands)

/-- Whatever has been bound since a call began is dropped when the call is over. -/
theorem Framed.leave {frame : Scope} {state after : State}
    (h : Framed names (state.enter frame) after) :
    after.leave.env = state.env ∧ after.leave.depth = state.depth := by
  constructor
  · -- the scopes around the frame are those of the caller, the innermost one included
    change after.env.leave = state.env
    rw [Env.leave, h.outer_eq]
    rfl
  · change after.depth - 1 = state.depth
    rw [h.depth_eq]
    rfl

theorem keeps_within {frame : Scope} {body : Run Value} (h : Keeps (Framed more) body) :
    Keeps (Framed names) (within frame body) := by
  intro state
  obtain ⟨henv, hdepth⟩ := (h (state.enter frame)).leave
  rw [ending_within]
  refine ⟨hdepth, congrArg Env.outer henv, ?_⟩
  rw [henv]
  exact .refl state.env.inner

section

variable {room : Room} {eval : Place → Expr → Run Value}

theorem keeps_truth {place : Place} (op : Operator) {operand : Expr}
    (h : Keeps (Framed names) (eval place operand)) :
    Keeps (Framed names) (truth room (eval place) op operand) := by
  apply Keeps.bind h
  intro value
  cases value with
  | bool value => exact .pure value
  | op op => exact .throw _
  | lambda params body => exact .throw _

theorem keeps_apply (heval : ∀ place expr, Keeps (Framed expr.definedNames) (eval place expr))
    (operator : Value) (operands : List Expr) :
    Keeps (Framed (Expr.definedNamesAll operands)) (apply config room eval operator operands) := by
  have hoperand : ∀ place, ∀ operand ∈ operands,
      Keeps (Framed (Expr.definedNamesAll operands)) (eval place operand) := by
    intro place operand hmem
    exact keeps_mono (heval place operand) (Expr.definedNames_subset_all hmem)
  cases operator with
  | bool value => exact .throw _
  | op op =>
      apply Keeps.bind (keeps_checkOperandCount op operands)
      intro _
      apply Keeps.bind (.mapM operands fun operand hmem => keeps_truth op (hoperand _ operand hmem))
      intro values
      exact .pure _
  | lambda params body =>
      apply Keeps.bind (keeps_checkArgumentCount params operands)
      intro _
      apply Keeps.bind (.mapM operands (hoperand .argument))
      intro arguments
      apply Keeps.bind keeps_checkDepth
      intro _
      apply Keeps.bind (keeps_record _ _)
      intro _
      -- the names that the body defines go into the frame, whatever they are
      exact keeps_within (heval .body body)

/-- Every rule binds only names of definitions outside lambdas, if the expressions inside do. -/
theorem keeps_rule (heval : ∀ place expr, Keeps (Framed expr.definedNames) (eval place expr))
    (expr : Expr) : Keeps (Framed expr.definedNames) (rule config room eval expr) := by
  cases expr with
  | bool value => exact .pure _
  | op op => exact .pure _
  | lambda params body => exact .pure _
  | hole => exact .throw _
  | ident name => exact keeps_lookup name
  | call operator operands =>
      rw [Expr.definedNames]
      apply Keeps.bind (keeps_mono (heval _ operator) (List.subset_append_left _ _))
      intro value
      exact keeps_mono (keeps_apply heval value operands) (List.subset_append_right _ _)
  | cond test yes no =>
      rw [Expr.definedNames]
      apply Keeps.bind (keeps_mono (heval _ test) (by simp))
      intro value
      cases value with
      | bool value =>
          apply Keeps.bind (keeps_record _ _)
          intro _
          cases value with
          | true => exact keeps_mono (heval _ yes) (by simp)
          | false => exact keeps_mono (heval _ no) (by simp)
      | op op => exact .throw _
      | lambda params body => exact .throw _
  | define name body =>
      rw [Expr.definedNames]
      apply Keeps.bind (keeps_mono (heval _ body) (List.subset_cons_self _ _))
      intro value
      apply Keeps.bind (keeps_define value List.mem_cons_self)
      intro _
      apply Keeps.bind (keeps_record _ _)
      intro _
      exact .pure value

end

/-- An evaluation binds only names of definitions outside the lambdas of the expression, in the
innermost scope. -/
theorem keeps_eval (config : Config) (nesting : Nat) (room : Room) (expr : Expr) :
    Keeps (Framed expr.definedNames) (eval config nesting room expr) := by
  -- on the nesting and not on the expression: the body of a call is no part of the call
  induction nesting generalizing room expr with
  | zero => exact .throw _
  | succ nesting ih =>
      rw [eval]
      split
      · exact .throw _
      · apply Keeps.bind (keeps_record _ _)
        intro _
        apply keeps_rule
        intro place expr
        exact ih _ expr

/-- An evaluation ends in the environment in which the run of it ends. -/
theorem env_evaluate (config : Config) (expr : Expr) (env : Env) :
    (expr.evaluate config env).env =
      (ending (eval config config.nesting config.room expr) (.start env)).2.env := by
  unfold Expr.evaluate ending
  cases eval config config.nesting config.room expr (.start env) <;> rfl

end Evaluation

/-! ## Shared environments -/

namespace Store

/-- The environments before and after an evaluation in one of them that binds some names: all others
are as they were, and that one is over the same one and its scope has grown by these names. -/
structure Framed (names : List String) (handle : Nat) (before after : Store) : Prop where
  length_eq : after.length = before.length
  cell?_eq : ∀ other, other ≠ handle → after.cell? other = before.cell? other
  grows : ∀ cell, before.cell? handle = some cell →
    ∃ scope, after.cell? handle = some { cell with scope := scope } ∧
      Scope.Grows names cell.scope scope

theorem framed_setScope {names : List String} {store : Store} {handle : Nat} {scope : Scope}
    (h : Scope.Grows names (store.env handle).inner scope) :
    Framed names handle store (store.setScope handle scope) := by
  refine ⟨length_setScope store handle scope, ?_, ?_⟩
  · intro other hne
    rw [cell?_setScope, if_neg hne]
  · intro cell hcell
    rw [env_inner hcell] at h
    refine ⟨scope, ?_, h⟩
    rw [cell?_setScope, if_pos rfl, hcell, Option.map_some]

/-- A run that leaves the environment as it was leaves the store as it was. -/
theorem runIn_of_env_eq {ε : Type} {run : Env → Outcome ε} {store : Store} {handle : Nat}
    (h : (run (store.env handle)).env = store.env handle) : (store.runIn handle run).2 = store := by
  change store.setEnv handle (run (store.env handle)).env = store
  rw [h, setEnv_env]

/-- A source that is not read as an expression leaves the environment alone. -/
theorem env_run_of_not_read {config : Config} {source : String} {env : Env} {failure : Failure}
    (h : (Session.run config source env).result = .error failure)
    (hread : ∀ error, failure ≠ .evaluate error) (hwrite : ∀ value, failure ≠ .write value) :
    (Session.run config source env).env = env := by
  rcases Session.comesOut_eq_error.1 h with h | ⟨value, -, -, rfl⟩
  case inr => exact absurd rfl (hwrite value)
  change (Session.runQuietly config source env).env = _
  rw [Session.runQuietly] at h ⊢
  cases hexpr : Session.read config.room source with
  | error failure => rfl
  | ok expr =>
      simp only [hexpr] at h
      cases hresult : (expr.evaluate config env).result with
      | ok value =>
          rw [hresult] at h
          cases h
      | error error =>
          rw [hresult] at h
          cases h
          exact absurd rfl (hread error)

/-- The environment of an evaluation has the same outer scopes as before, and its own scope has
grown by names of definitions outside lambdas. -/
theorem evaluate_env (config : Config) (expr : Expr) (env : Env) :
    (expr.evaluate config env).env.outer = env.outer ∧
      Scope.Grows expr.definedNames env.inner (expr.evaluate config env).env.inner := by
  have hkeeps := Evaluation.keeps_eval config config.nesting config.room expr (.start env)
  rw [Evaluation.env_evaluate]
  exact ⟨hkeeps.outer_eq, hkeeps.inner_grows⟩

/-- An evaluation in one of the environments of a store, however it ends, changes only the scope of
that environment: the names in it stay in their places and new ones come after them, and a binding
is new or different only under a name that the expression defines outside its lambdas. If it defines
none, nothing changes; nor does anything change if a source is not read as an expression. -/
theorem evaluate_frame (config : Config) (store : Store) (handle : Nat) :
    (∀ expr, Framed expr.definedNames handle store (store.evaluate config expr handle).2) ∧
    (∀ expr, expr.definedNames = [] → (store.evaluate config expr handle).2 = store) ∧
    ∀ source, ((∃ error, (store.run config source handle).1.result = .error (.tokenize error)) ∨
        ∃ error, (store.run config source handle).1.result = .error (.parse error)) →
      (store.run config source handle).2 = store := by
  refine ⟨?_, ?_, ?_⟩
  · intro expr
    obtain ⟨houter, hgrows⟩ := evaluate_env config expr (store.env handle)
    change Framed _ handle store (store.setEnv handle (expr.evaluate config (store.env handle)).env)
    rw [setEnv_eq_setScope store handle houter]
    exact framed_setScope hgrows
  · intro expr hnone
    obtain ⟨houter, hgrows⟩ := evaluate_env config expr (store.env handle)
    rw [hnone] at hgrows
    exact runIn_of_env_eq (Env.ext hgrows.eq_of_nil houter)
  · intro source hfails
    apply runIn_of_env_eq
    rcases hfails with ⟨error, hresult⟩ | ⟨error, hresult⟩
    · exact env_run_of_not_read hresult nofun nofun
    · exact env_run_of_not_read hresult nofun nofun

/-- An environment over one that binds a lambda, in whose body a name is defined. -/
def overLambda : Store :=
  [⟨.ofList [("b", .bool true)], some 0⟩,
    ⟨.ofList [("f", .lambda [] (.define "x" (.bool true)))], none⟩]

set_option maxRecDepth 4000 in
/-- The lambda is called beside a definition, and the evaluation fails afterwards: the definition is
kept, the name in the body is not defined. The call alone changes nothing, nor does a source that
ends too soon. -/
theorem evaluate_frame_overLambda :
    let expr : Expr :=
      .call (.op .and) [.call (.ident "f") [], .define "a" (.bool false), .ident "x"]
    let after := (overLambda.evaluate {} expr 1).2
    (overLambda.evaluate {} expr 1).1.result = .error (.notDefined "x") ∧
      after.cell? 0 = overLambda.cell? 0 ∧
      (∃ scope, after.cell? 1 = some ⟨scope, some 0⟩ ∧
        Scope.Grows ["a"] (.ofList [("b", .bool true)]) scope) ∧
      (overLambda.evaluate {} (.call (.ident "f") []) 1).2 = overLambda ∧
      (overLambda.run {} "(f" 1).2 = overLambda := by
  intro expr after
  have hframe := evaluate_frame {} overLambda 1
  have hframed := hframe.1 expr
  have hparse : ∃ error, (overLambda.run {} "(f" 1).1.result = .error (.parse error) :=
    ⟨.ended .operand, rfl⟩
  exact ⟨rfl, hframed.cell?_eq 0 (by decide), hframed.grows _ rfl, hframe.2.1 _ rfl,
    hframe.2.2 "(f" (.inr hparse)⟩

end Store

end PrefixLogic
