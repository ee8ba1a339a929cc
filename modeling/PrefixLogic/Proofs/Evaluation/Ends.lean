import PrefixLogic.Proofs.Evaluation.Nesting

/-!
# How an expression ends

How an expression ends, and in which environment, is a matter of the environment in which it begins
and of the number of active calls (`Evaluation.Ends`). What has been recorded before makes no
difference, nor does it matter how much nesting and room there is, unless it is too little
(`Evaluation.Ends.unique`). With a limit on calls every expression ends (`Evaluation.exists_ends`).
-/

namespace PrefixLogic.Evaluation

variable {config : Config} {depth : Nat} {α β : Type}

/-- While so many calls are active, an expression ends with a result and leaves an environment: some
run of it does, which is not stopped for lack of nesting or room. -/
def Ends (config : Config) (depth : Nat) (expr : Expr) (env : Env)
    (result : Except EvalError Value) (after : Env) : Prop :=
  result ≠ .error .nesting ∧
    ∃ nesting room, ∃ before last : State, before.env = env ∧ before.depth = depth ∧
      last.env = after ∧ ending (eval config nesting room expr) before = (result, last)

/-- Evaluations in the same environment, of which the first one may stop for lack of nesting or
room. -/
def roomier {config' : Config} (hmax : config'.maxDepth = config.maxDepth) :
    Correspondence config config' where
  code _ := True
  value _ := True
  error _ := True
  stops reason := reason = .nesting
  state outer outer' := outer'.env = outer.env
  maxDepth_eq := hmax
  carried := carried_true
  error_arises _ := trivial
  get?_eq := by
    rintro name outer outer' - henv
    rw [henv]
  value_get? _ _ _ := trivial
  recorded _ henv := henv
  insert := by
    rintro outer outer' name bound - henv
    exact congrArg (·.insert name bound) henv
  enter := by
    rintro outer outer' params arguments - henv
    exact congrArg (·.enter (.ofList (params.zip arguments))) henv
  leave henv _ := henv

/-- From every state with this environment and with so many active calls, a run ends with a result,
in a state with that environment and with as many. -/
def Leads (run : Run α) (depth : Nat) (env : Env) (result : Except EvalError α) (after : Env) :
    Prop :=
  ∀ before : State, before.env = env → before.depth = depth →
    ∃ last : State, ending run before = (result, last) ∧ last.env = after ∧ last.depth = depth

namespace Leads

variable {run : Run α} {next : α → Run β} {env now after : Env} {reason : EvalError}

theorem pure (value : α) : Leads (Pure.pure value) depth env (.ok value) env := by
  intro before henv hdepth
  exact ⟨before, rfl, henv, hdepth⟩

theorem throw (reason : EvalError) :
    Leads (MonadExcept.throw reason : Run α) depth env (.error reason) env := by
  intro before henv hdepth
  exact ⟨before, rfl, henv, hdepth⟩

theorem bind {value : α} {result : Except EvalError β} (h : Leads run depth env (.ok value) now)
    (hnext : Leads (next value) depth now result after) :
    Leads (run >>= next) depth env result after := by
  intro before henv hdepth
  obtain ⟨middle, hrun, henv', hdepth'⟩ := h before henv hdepth
  rw [ending_bind, hrun]
  exact hnext middle henv' hdepth'

theorem bind_error (h : Leads run depth env (.error reason) after) :
    Leads (run >>= next) depth env (.error reason) after := by
  intro before henv hdepth
  obtain ⟨last, hrun, henv', hdepth'⟩ := h before henv hdepth
  refine ⟨last, ?_, henv', hdepth'⟩
  rw [ending_bind, hrun]

/-- A result that is made from the value. -/
theorem map {result : Except EvalError α} (f : α → β) (h : Leads run depth env result after) :
    Leads (run >>= fun value => Pure.pure (f value)) depth env (result.map f) after := by
  cases result with
  | ok value => exact h.bind (pure (f value))
  | error reason => exact h.bind_error

end Leads

section

variable {expr : Expr} {env after : Env} {result : Except EvalError Value}

theorem Ends.of_ending {nesting : Nat} {room : Room} {before last : State}
    (h : ending (eval config nesting room expr) before = (result, last))
    (hresult : result ≠ .error .nesting) :
    Ends config before.depth expr before.env result last.env :=
  ⟨hresult, nesting, room, before, last, rfl, rfl, rfl, h⟩

/-- Where the room is without limit and the nesting is enough, every run ends so. -/
theorem Ends.leads (h : Ends config depth expr env result after) :
    ∃ least, ∀ nesting, least ≤ nesting →
      Leads (eval config nesting none expr) depth env result after := by
  obtain ⟨hresult, least, room, before, last, rfl, rfl, rfl, hends⟩ := h
  refine ⟨least, ?_⟩
  intro nesting hle before' henv hdepth
  let same : Correspondence config config := roomier rfl
  have hruns : same.Runs before.depth (fun _ => True) (eval config least room expr)
      (eval config nesting none expr) :=
    same.runs_eval trivial (.inr ⟨rfl, hle⟩)
      (.wider trivial rfl room.isWithin_none (.inl rfl)) trivial
  obtain ⟨halike, -⟩ := hruns before before' ⟨henv, rfl, hdepth⟩
  rw [hends] at halike
  generalize ending (eval config nesting none expr) before' = ends at halike ⊢
  cases halike with
  | @same _ last' _ hafter =>
      exact ⟨last', rfl, hafter.state, hafter.depth_eq'⟩
  | stop _ hstop => exact absurd (congrArg _ hstop) hresult

/-- There is one result at most, and one environment afterwards. -/
theorem Ends.unique {result' : Except EvalError Value} {after' : Env}
    (h : Ends config depth expr env result after) (h' : Ends config depth expr env result' after') :
    result' = result ∧ after' = after := by
  obtain ⟨least, hleads⟩ := h.leads
  obtain ⟨least', hleads'⟩ := h'.leads
  let before : State := { State.start env with depth := depth }
  obtain ⟨last, hends, rfl, -⟩ := hleads (max least least') (Nat.le_max_left _ _) before rfl rfl
  obtain ⟨last', hends', rfl, -⟩ :=
    hleads' (max least least') (Nat.le_max_right _ _) before rfl rfl
  obtain ⟨rfl, rfl⟩ := Prod.mk.inj (hends'.symm.trans hends)
  exact ⟨rfl, rfl⟩

/-- With a limit on calls, every expression ends. -/
theorem exists_ends {limit : Nat} (hmax : config.maxDepth = some (limit : Int)) (depth : Nat)
    (expr : Expr) (env : Env) : ∃ result after, Ends config depth expr env result after := by
  let before : State := { State.start env with depth := depth }
  let nesting := (limit + 1) * Expr.heightAll (expr :: env.bodies)
  have hresult : (ending (eval config nesting none expr) before).1 ≠ .error .nesting :=
    ending_ne_nesting hmax (Nat.le_refl nesting)
  exact ⟨_, _, Ends.of_ending (rfl : ending _ before = (_, _)) hresult⟩

end

end PrefixLogic.Evaluation
