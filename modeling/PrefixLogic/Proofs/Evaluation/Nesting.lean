import PrefixLogic.Proofs.Evaluation.Correspondence
import PrefixLogic.Proofs.Reading.Grammar

/-!
# How far expressions are nested under evaluation

With a limit on calls, every evaluation ends, and the number of expressions that are under
evaluation inside one another is bounded by the limit and the height of the code: between two calls,
evaluation goes down in one tree, and no tree is higher than the highest one at hand at the start
(`Expr.evaluate_ends_within`). An evaluation that ends is not changed by more nesting or more room
(`eval_of_le`).
-/

namespace PrefixLogic

/-- The bodies of the lambdas that an environment shows. -/
def Env.bodies (env : Env) : List Expr :=
  env.names.filterMap fun name => (env.get? name).bind Value.body?

theorem Env.mem_bodies {env : Env} {name : String} {value : Value} {body : Expr}
    (hget : env.get? name = some value) (hbody : body ∈ value.body?) : body ∈ env.bodies := by
  rw [bodies, List.mem_filterMap]
  refine ⟨name, (env.mem_names_iff name).2 (by simp [hget]), ?_⟩
  rw [hget]
  exact hbody

/-- A configuration in which nothing is limited but calls and nesting. -/
def Config.withLimits (config : Config) (calls : Option Nat) (nesting : Nat) : Config :=
  { config with maxDepth := calls.map fun limit => (limit : Int), nesting, room := none }

theorem EvalError.ArisesFrom.ne_nesting {code : Expr → Prop} {value : Value → Prop}
    {limit : Option Int} {reason : EvalError} (h : reason.ArisesFrom code value limit) :
    reason ≠ .nesting := by
  rintro rfl
  exact h

namespace Expr

theorem height_pos (expr : Expr) : 0 < expr.height := by
  cases expr <;> simp [height]

theorem height_le_heightAll {expr : Expr} :
    ∀ {exprs : List Expr}, expr ∈ exprs → expr.height ≤ heightAll exprs
  | head :: rest, h => by
      rw [heightAll]
      rcases List.mem_cons.1 h with rfl | h
      · exact Nat.le_max_left _ _
      · exact (height_le_heightAll h).trans (Nat.le_max_right _ _)

theorem height_lt_of_mem_parts {expr part : Expr} (h : part ∈ expr.parts) :
    part.height < expr.height := by
  cases expr with
  | call operator operands =>
      rw [height, Nat.lt_succ_iff]
      rcases List.mem_cons.1 h with rfl | h
      · exact Nat.le_max_left _ _
      · exact (height_le_heightAll h).trans (Nat.le_max_right _ _)
  | cond test yes no =>
      simp only [parts, List.mem_cons, List.not_mem_nil, or_false] at h
      rw [height]
      rcases h with rfl | rfl | rfl <;> omega
  | define name body =>
      rw [List.mem_singleton.1 h, height]
      exact Nat.lt_succ_self _
  | _ => cases h

end Expr

namespace Evaluation

variable {config config' : Config}

/-! ## More nesting -/

/-- Evaluations in the same states, of which the first one may stop for lack of nesting or room. -/
def shorter (hmax : config'.maxDepth = config.maxDepth)
    (hverbosity : config'.verbosity = config.verbosity) : Correspondence config config' where
  code _ := True
  value _ := True
  error _ := True
  stops reason := reason = .nesting
  state outer outer' := outer' = outer
  maxDepth_eq := hmax
  carried := carried_true
  error_arises _ := trivial
  get?_eq := by
    rintro name outer _ - rfl
    rfl
  value_get? _ _ _ := trivial
  recorded := by
    rintro event outer _ - rfl
    exact State.recorded_eq hverbosity event _
  insert := by
    rintro outer _ name bound - rfl
    rfl
  enter := by
    rintro outer _ params arguments - rfl
    rfl
  leave := by
    rintro outer _ inner _ rfl rfl
    rfl

/-- An evaluation that ends is not changed by more nesting and more room. -/
theorem eval_of_le {nesting nesting' : Nat} {room room' : Room} {expr : Expr} {state : State}
    (h : (ending (eval config nesting room expr) state).1 ≠ .error .nesting)
    (hle : nesting ≤ nesting') (hwithin : room.IsWithin room')
    (hmax : config'.maxDepth = config.maxDepth)
    (hverbosity : config'.verbosity = config.verbosity) :
    ending (eval config' nesting' room' expr) state =
      ending (eval config nesting room expr) state := by
  have hrecords : ∀ event : Event, event.isRecorded config'.verbosity = true →
      event.isRecorded config.verbosity = true := by
    rw [hverbosity]
    exact fun _ => id
  have hruns : (shorter hmax hverbosity).Runs state.depth (fun _ => True)
      (eval config nesting room expr) (eval config' nesting' room' expr) :=
    (shorter hmax hverbosity).runs_eval trivial (.inr ⟨rfl, hle⟩)
      (.wider trivial rfl hwithin (.inr hrecords)) trivial
  obtain ⟨halike, -⟩ := hruns state state ⟨rfl, rfl, rfl⟩
  generalize ending (eval config nesting room expr) state = ends,
    ending (eval config' nesting' room' expr) state = ends' at halike h ⊢
  cases halike with
  | same result hafter => rw [hafter.state]
  | stop _ hstop => exact absurd (congrArg _ hstop) h

/-! ## Enough nesting -/

/-- Code that is no higher than this. -/
theorem carried_height (most : Nat) :
    Carried (fun expr => expr.height ≤ most)
      (fun value => ∀ body ∈ value.body?, body.height ≤ most) := by
  apply Carried.ofCode
  · intro params body hheight
    rw [Expr.height] at hheight
    omega
  · intro expr hheight part hmem
    exact (Expr.height_lt_of_mem_parts hmem).le.trans hheight

/-- An evaluation of code that is no higher than this, in which the nesting is enough. -/
def enough (config : Config) (most : Nat) : Correspondence config config :=
  .ofCarried (carried_height most) EvalError.ArisesFrom.ne_nesting

/-- The nesting is enough if there is room for the code itself, and for the highest body in each
call that may still begin. -/
theorem runs_eval_enough {most limit : Nat} (hmax : config.maxDepth = some (limit : Int))
    (nesting depth : Nat) {expr : Expr} (hheight : expr.height ≤ most)
    (henough : (limit - depth) * most + expr.height ≤ nesting) :
    (enough config most).Runs depth (enough config most).value (eval config nesting none expr)
      (eval config nesting none expr) := by
  have hpos := expr.height_pos
  induction nesting generalizing depth expr with
  | zero => omega
  | succ nesting ih =>
      rw [eval]
      apply ((enough config most).runs_record .free (.visited expr) hheight).bind
      intro _ _
      apply Correspondence.runs_rule .free _ _ hheight
      · intro place part hmem
        have hlower := Expr.height_lt_of_mem_parts hmem
        exact ih depth (by omega) (by omega) part.height_pos
      · intro body hbody hadmits
        -- one call less may begin inside, and its height is that of the highest body
        have hdepth : depth < limit := by
          have := hadmits limit hmax
          omega
        obtain ⟨left, hleft⟩ : ∃ left, limit - depth = left + 1 := ⟨limit - depth - 1, by omega⟩
        rw [hleft, Nat.succ_mul] at henough
        refine ih (depth + 1) hbody ?_ body.height_pos
        rw [show limit - (depth + 1) = left by omega]
        change body.height ≤ most at hbody
        omega
      · intro place expr
        exact keeps_eval config nesting _ expr
      · intro place expr
        exact keeps_eval config nesting _ expr

theorem shows_bodies {env : Env} {most : Nat} (h : Expr.heightAll env.bodies ≤ most)
    (names : String → Prop) :
    env.Shows names fun value => ∀ body ∈ value.body?, body.height ≤ most := by
  intro name _ value hget body hbody
  exact (Expr.height_le_heightAll (Env.mem_bodies hget hbody)).trans h

/-- With a limit on calls, evaluation ends within a nesting that depends on the limit and on the
greatest height of the expression and of the bodies that the environment shows. -/
theorem ending_ne_nesting {limit : Nat} (hmax : config.maxDepth = some (limit : Int)) {expr : Expr}
    {state : State} {nesting : Nat}
    (henough : (limit + 1) * Expr.heightAll (expr :: state.env.bodies) ≤ nesting) :
    (ending (eval config nesting none expr) state).1 ≠ .error .nesting := by
  have hheight : expr.height ≤ Expr.heightAll (expr :: state.env.bodies) :=
    Expr.height_le_heightAll List.mem_cons_self
  have hleft := Nat.mul_le_mul_right (Expr.heightAll (expr :: state.env.bodies))
    (Nat.sub_le limit state.depth)
  rw [Nat.succ_mul] at henough
  have hruns := runs_eval_enough hmax nesting state.depth hheight (by omega)
  have hshows := shows_bodies (Nat.le_max_right expr.height (Expr.heightAll state.env.bodies))
  obtain ⟨hresult, -⟩ := Correspondence.ends_of_runs _ EvalError.ArisesFrom.ne_nesting state hruns
    (hshows _)
  intro hnesting
  rw [hnesting] at hresult
  exact hresult rfl

end Evaluation

namespace Expr

open Evaluation (evaluate_eq eval_of_le)

variable {config : Config} {expr : Expr} {env : Env}

theorem evaluate_of_le {calls : Option Nat} {nesting nesting' : Nat}
    (h : (expr.evaluate (config.withLimits calls nesting) env).result ≠ .error .nesting)
    (hle : nesting ≤ nesting') :
    expr.evaluate (config.withLimits calls nesting') env =
      expr.evaluate (config.withLimits calls nesting) env := by
  rw [evaluate_eq] at h
  have hends : Evaluation.ending (Evaluation.eval (config.withLimits calls nesting') nesting' none
      expr) (.start env) = _ := eval_of_le h hle (Room.isWithin_self none) rfl rfl
  rw [evaluate_eq, evaluate_eq]
  exact congrArg (fun ends => Outcome.mk ends.1 ends.2.env ends.2.events.toList) hends

theorem evaluate_ne_nesting {limit nesting : Nat}
    (henough : (limit + 1) * heightAll (expr :: env.bodies) ≤ nesting) :
    (expr.evaluate (config.withLimits (some limit) nesting) env).result ≠ .error .nesting := by
  rw [evaluate_eq]
  exact Evaluation.ending_ne_nesting rfl henough

/-- With a limit on calls and no other one, evaluation ends with a value or with an error. The
nesting that it needs is bounded by the limit and by the greatest height of the expression and of
the bodies that the environment shows: more of it changes nothing. -/
theorem evaluate_ends_within (config : Config) (expr : Expr) (env : Env) (limit : Nat) :
    let nesting := (limit + 1) * heightAll (expr :: env.bodies)
    let outcome := expr.evaluate (config.withLimits (some limit) nesting) env
    outcome.result ≠ .error .nesting ∧
      ∀ more, expr.evaluate (config.withLimits (some limit) (nesting + more)) env = outcome := by
  intro nesting outcome
  have hends : outcome.result ≠ .error .nesting := evaluate_ne_nesting (Nat.le_refl nesting)
  refine ⟨hends, ?_⟩
  intro more
  exact evaluate_of_le hends (Nat.le_add_right nesting more)

end Expr

end PrefixLogic
