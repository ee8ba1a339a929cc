import PrefixLogic.Proofs.Evaluation.Nesting

/-!
# A limit on calls

How many calls are active at a time is read off an evaluation without a counter: a call counts for
one call more than there are inside its body, and parts that follow one another do not add up
(`Evaluation.callHeight`). This height of an evaluation without a limit is the threshold for limits
(`Expr.evaluate_callDepth_threshold`): a limit that is not below it changes nothing, and a lower one
ends the evaluation with its own error.

The proof compares an evaluation with a limited one, part by part (`Evaluation.Threshold`): where
the height fits under the limit the two end alike, and where it does not, the limited one has
stopped.
-/

namespace PrefixLogic

namespace Evaluation

variable {α β : Type}

/-! ## Calls inside one another -/

/-- The height of what follows a run, which is nothing if the run ends with an error. -/
def afterwards (ends : Except EvalError α × State) (height : α → State → Nat) : Nat :=
  match ends with
  | (.ok value, after) => height value after
  | (.error _, _) => 0

/-- The height of runs that follow one another, one for each expression of a list. -/
def heightOfAll (run : Expr → Run α) (height : Expr → State → Nat) : List Expr → State → Nat
  | [], _ => 0
  | expr :: rest, state =>
    max (height expr state)
      (afterwards (ending (run expr) state) fun _ => heightOfAll run height rest)

/-- The height of a call of a lambda. The arguments are evaluated before the call is active. -/
def heightOfLambda (config : Config) (room : Room) (eval : Place → Expr → Run Value)
    (height : Place → Expr → State → Nat) (params : List String) (body : Expr)
    (operands : List Expr) (state : State) : Nat :=
  max (heightOfAll (eval .argument) (height .argument) operands state)
    (afterwards (ending (operands.mapM (eval .argument)) state) fun arguments after =>
      afterwards (ending (record config (room.inside .body) (.called params body arguments)) after)
        fun _ last => height .body body (last.enter (.ofList (params.zip arguments))) + 1)

/-- The height of the application of a value. -/
def heightOfApply (config : Config) (room : Room) (eval : Place → Expr → Run Value)
    (height : Place → Expr → State → Nat) (operands : List Expr) : Value → State → Nat
  | .bool _, _ => 0
  | .op op, state =>
    afterwards (ending (checkOperandCount op operands) state) fun _ =>
      heightOfAll (truth (room.inside (.operand op)) (eval (.operand op)) op)
        (height (.operand op)) operands
  | .lambda params body, state =>
    afterwards (ending (checkArgumentCount params operands) state) fun _ =>
      heightOfLambda config room eval height params body operands

/-- The height of a branch, if the value of the condition chooses one. -/
def heightOfChoice (config : Config) (room : Room) (height : Place → Expr → State → Nat)
    (test yes no : Expr) : Value → State → Nat
  | .bool truth, state =>
    afterwards (ending (record config (room.inside .branch) (.decided test truth)) state) fun _ =>
      height .branch (if truth then yes else no)
  | .op _, _ | .lambda _ _, _ => 0

/-- The height of the evaluation of each form of expression, given the heights of the evaluations
inside it. -/
def heightOfRule (config : Config) (room : Room) (eval : Place → Expr → Run Value)
    (height : Place → Expr → State → Nat) : Expr → State → Nat
  | .bool _, _ | .op _, _ | .lambda _ _, _ | .ident _, _ | .hole, _ => 0
  | .call operator operands, state =>
    max (height .operator operator state)
      (afterwards (ending (eval .operator operator) state)
        (heightOfApply config room eval height operands))
  | .cond test yes no, state =>
    max (height .test test state)
      (afterwards (ending (eval .test test) state)
        (heightOfChoice config room height test yes no))
  | .define _ body, state => height .definition body state

/-- How many calls are active at a time, at most, while an expression is evaluated from a state. The
calls that are active in that state do not count. -/
def callHeight (config : Config) : (nesting : Nat) → (room : Room) → Expr → State → Nat
  | 0, _, _, _ => 0
  | nesting + 1, room, expr, state =>
    if room.isUsedUp then 0
    else
      afterwards (ending (record config (room.less 1) (.visited expr)) state) fun _ =>
        heightOfRule config room (fun place => eval config nesting (room.inside place))
          (fun place => callHeight config nesting (room.inside place)) expr

/-! ## Thresholds -/

/-- The calls of a run are as high as this, above those that are active before: the run leaves the
number of active calls as it was, and the greatest one as high as that. Under a limit, it ends as it
does without one, if the height fits under the limit, and else it does not get through. -/
structure Threshold (limit : Nat) (height : State → Nat) (run limited : Run α) : Prop where
  depth_eq : ∀ state, (ending run state).2.depth = state.depth
  peak_eq : ∀ state, state.depth ≤ state.peak →
    (ending run state).2.peak = max state.peak (state.depth + height state)
  fits : ∀ state, state.depth + height state ≤ limit → ending limited state = ending run state
  exceeds : ∀ state, state.depth ≤ limit → limit < state.depth + height state →
    (ending limited state).1 = .error (.callDepth limit)

namespace Threshold

variable {limit : Nat} {height : State → Nat} {run limited : Run α}

/-- A run in which nothing is called. -/
theorem zero (hdepth : ∀ state, (ending run state).2.depth = state.depth)
    (hpeak : ∀ state, (ending run state).2.peak = state.peak) :
    Threshold limit (fun _ => 0) run run where
  depth_eq := hdepth
  peak_eq state hstate := (hpeak state).trans (Nat.max_eq_left hstate).symm
  fits _ _ := rfl
  exceeds _ hstate hover := absurd hstate (Nat.not_le.2 hover)

/-- In a run that only looks at its state, nothing is called. -/
theorem of_ending {result : State → Except EvalError α}
    (h : ∀ state, ending run state = (result state, state)) :
    Threshold limit (fun _ => 0) run run := by
  apply zero
  · intro state
    rw [h]
  · intro state
    rw [h]

theorem pure (value : α) : Threshold limit (fun _ => 0) (Pure.pure value) (Pure.pure value) :=
  .of_ending (ending_pure value)

theorem throw (reason : EvalError) :
    Threshold limit (fun _ => 0) (MonadExcept.throw reason : Run α) (MonadExcept.throw reason) :=
  .of_ending (ending_throw reason)

theorem congr (h : Threshold limit height run limited) {height' : State → Nat}
    (heq : ∀ state, height' state = height state) : Threshold limit height' run limited := by
  rw [funext heq]
  exact h

/-- Heights of runs that follow one another do not add up. -/
theorem bind (h : Threshold limit height run limited) {height' : α → State → Nat}
    {next next' : α → Run β}
    (hnext : ∀ value, Threshold limit (height' value) (next value) (next' value)) :
    Threshold limit (fun state => max (height state) (afterwards (ending run state) height'))
      (run >>= next) (limited >>= next') where
  depth_eq state := by
    have hdepth := h.depth_eq state
    rw [ending_bind]
    generalize ending run state = ends at hdepth ⊢
    obtain ⟨result, after⟩ := ends
    cases result with
    | ok value => exact ((hnext value).depth_eq after).trans hdepth
    | error reason => exact hdepth
  peak_eq state hstate := by
    have hdepth := h.depth_eq state
    have hpeak := h.peak_eq state hstate
    rw [ending_bind]
    generalize ending run state = ends at hdepth hpeak ⊢
    obtain ⟨result, after⟩ := ends
    cases result with
    | ok value =>
        -- the second part begins with as many active calls and with the peak of the first
        have hafter := (hnext value).peak_eq after
        simp only [afterwards] at hdepth hpeak ⊢
        omega
    | error reason =>
        simp only [afterwards] at hpeak ⊢
        omega
  fits state hfits := by
    have hdepth := h.depth_eq state
    rw [ending_bind, ending_bind, h.fits state (by omega)]
    generalize ending run state = ends at hdepth hfits ⊢
    obtain ⟨result, after⟩ := ends
    cases result with
    | ok value =>
        apply (hnext value).fits after
        simp only [afterwards] at hdepth hfits
        omega
    | error reason => rfl
  exceeds state hstate hover := by
    have hdepth := h.depth_eq state
    rw [ending_bind]
    by_cases hheight : state.depth + height state ≤ limit
    · rw [h.fits state hheight]
      generalize ending run state = ends at hdepth hover ⊢
      obtain ⟨result, after⟩ := ends
      cases result with
      | ok value =>
          simp only [afterwards] at hdepth hover
          exact (hnext value).exceeds after (by omega) (by omega)
      | error reason =>
          simp only [afterwards] at hover
          omega
    · -- the first part does not get through, and so the whole does not
      have hstops := h.exceeds state hstate (Nat.not_le.1 hheight)
      generalize ending limited state = ends at hstops ⊢
      obtain ⟨result, after⟩ := ends
      obtain rfl : result = .error (.callDepth limit) := hstops
      rfl

/-- A part in which nothing is called, before a run. -/
theorem after {first : Run β} (hfirst : Threshold limit (fun _ => 0) first first)
    {next limited : β → Run α} {height : β → State → Nat}
    (hnext : ∀ value, Threshold limit (height value) (next value) (limited value)) :
    Threshold limit (fun state => afterwards (ending first state) height) (first >>= next)
      (first >>= limited) := by
  apply (hfirst.bind hnext).congr
  intro state
  exact (Nat.zero_max _).symm

/-- A part in which nothing is called, after a run. -/
theorem before (h : Threshold limit height run limited) {next next' : α → Run β}
    (hnext : ∀ value, Threshold limit (fun _ => 0) (next value) (next' value)) :
    Threshold limit height (run >>= next) (limited >>= next') := by
  apply (h.bind hnext).congr
  intro state
  rcases ending run state with ⟨result, after⟩
  cases result with
  | ok value => exact (Nat.max_zero _).symm
  | error reason => exact (Nat.max_zero _).symm

theorem mapM {run limited : Expr → Run α} {height : Expr → State → Nat}
    (h : ∀ expr, Threshold limit (height expr) (run expr) (limited expr)) :
    ∀ exprs : List Expr,
      Threshold limit (heightOfAll run height exprs) (exprs.mapM run) (exprs.mapM limited)
  | [] => by
      rw [List.mapM_nil, List.mapM_nil]
      exact .pure _
  | expr :: exprs => by
      rw [List.mapM_cons, List.mapM_cons]
      apply (h expr).bind
      intro value
      apply (mapM h exprs).before
      intro values
      exact .pure _

end Threshold

/-! ## Evaluation under a limit -/

section

variable {config config' : Config} {limit : Nat} (hmax : config.maxDepth = none)
  (hmax' : config'.maxDepth = some (limit : Int))
  (hverbosity : config'.verbosity = config.verbosity)

/-- An event is no call. -/
theorem threshold_record (room : Room) (event : Event) :
    Threshold limit (fun _ => 0) (record config room event) (record config room event) := by
  apply Threshold.zero
  · intro state
    rw [ending_record]
    split <;> rfl
  · intro state
    rw [ending_record]
    split <;> rfl

include hverbosity in
theorem Threshold.recorded {height : State → Nat} {run limited : Run α}
    (h : Threshold limit height run limited) (room : Room) (event : Event) :
    Threshold limit
      (fun state => afterwards (ending (record config room event) state) fun _ => height)
      (do record config room event; run) (do record config' room event; limited) := by
  rw [record_eq hverbosity]
  exact (threshold_record room event).after fun _ => h

/-- A call that may begin. -/
theorem ending_call {config : Config} {state : State} (hadmits : Admits config state.depth)
    (event : Event) (frame : Scope) (body : Run Value) :
    ending (do checkDepth config; record config none event; within frame body) state =
      let ends := ending body ((state.recorded config event).enter frame)
      (ends.1, ends.2.leave) := by
  have hcheck : ending (checkDepth config) state = (.ok (), state) := by
    rw [ending_checkDepth]
    cases hmax : config.maxDepth with
    | none => rfl
    | some limit => simp only [if_pos (hadmits limit hmax)]
  rw [ending_bind, hcheck]
  dsimp only
  rw [ending_record_bind (fits_none config event), ending_within]

include hmax hmax' hverbosity in
/-- The call itself: it begins if one more than before fits under the limit. -/
theorem threshold_call {body body' : Run Value} {height : State → Nat}
    (h : Threshold limit height body body') (event : Event) (frame : Scope) :
    Threshold limit (fun state => height ((state.recorded config event).enter frame) + 1)
      (do checkDepth config; record config none event; within frame body)
      (do checkDepth config'; record config' none event; within frame body') := by
  have hadmits : ∀ depth, Admits config depth := by
    intro depth most hmost
    rw [hmax] at hmost
    cases hmost
  have hadmits' : ∀ {depth}, depth < limit → Admits config' depth := by
    intro depth hdepth most hmost
    rw [hmax', Option.some.injEq] at hmost
    omega
  refine ⟨?depth, ?peak, ?fits, ?exceeds⟩
  case depth =>
    intro state
    rw [ending_call (hadmits _)]
    change (ending body _).2.depth - 1 = state.depth
    rw [h.depth_eq]
    rfl
  case peak =>
    intro state hstate
    rw [ending_call (hadmits _)]
    change (ending body _).2.peak = _
    -- the call is one more that is active, whether its body goes deeper or not
    rw [h.peak_eq _ (Nat.le_max_right _ _)]
    change max (max state.peak (state.depth + 1)) (state.depth + 1 + _) = _
    omega
  case fits =>
    intro state hfits
    rw [ending_call (hadmits _), ending_call (hadmits' (by omega)),
      State.recorded_eq hverbosity, h.fits]
    change state.depth + 1 + _ ≤ limit
    omega
  case exceeds =>
    intro state hstate hover
    rcases Nat.lt_or_ge state.depth limit with hdepth | hdepth
    · -- the call begins, but its body does not get through
      rw [ending_call (hadmits' hdepth), State.recorded_eq hverbosity]
      apply h.exceeds
      · exact hdepth
      · change limit < state.depth + 1 + _
        omega
    · have hfull : ¬(state.depth : Int) < limit := by omega
      rw [ending_bind, ending_checkDepth, hmax']
      simp only [if_neg hfull]

theorem threshold_define (name : String) (value : Value) :
    Threshold limit (fun _ => 0) (define name value) (define name value) :=
  .zero (fun _ => rfl) fun _ => rfl

section

variable {room : Room} {eval eval' : Place → Expr → Run Value}
  {height : Place → Expr → State → Nat}
  (h : ∀ place expr, Threshold limit (height place expr) (eval place expr) (eval' place expr))

include h in
theorem threshold_truth (op : Operator) (operand : Expr) :
    Threshold limit (height (.operand op) operand) (truth room (eval (.operand op)) op operand)
      (truth room (eval' (.operand op)) op operand) := by
  apply (h (.operand op) operand).before
  intro value
  cases value with
  | bool value => exact .pure value
  | op op => exact .throw _
  | lambda params body => exact .throw _

include h in
theorem threshold_applyOperator (op : Operator) (operands : List Expr) :
    Threshold limit (heightOfApply config room eval height operands (.op op))
      (applyOperator room eval op operands) (applyOperator room eval' op operands) := by
  apply (Threshold.of_ending (ending_checkOperandCount op operands)).after
  intro _
  apply (Threshold.mapM (threshold_truth h op) operands).before
  intro values
  exact .pure _

include hverbosity h in
theorem threshold_choose (test yes no : Expr) (value : Value) :
    Threshold limit (heightOfChoice config room height test yes no value)
      (choose config room eval test value yes no)
      (choose config' room eval' test value yes no) := by
  cases value with
  | bool truth =>
      exact (h .branch (if truth then yes else no)).recorded hverbosity _ (.decided test truth)
  | op op => exact .throw _
  | lambda params body => exact .throw _

include hmax hmax' hverbosity h

/-- The room is without limit from here on: else a call that may not begin, and that there is no
room to record, would end with another error under the limit than without it. -/
theorem threshold_applyLambda (params : List String) (body : Expr) (operands : List Expr) :
    Threshold limit (heightOfApply config none eval height operands (.lambda params body))
      (applyLambda config none eval params body operands)
      (applyLambda config' none eval' params body operands) := by
  apply (Threshold.of_ending (ending_checkArgumentCount params operands)).after
  intro _
  apply (Threshold.mapM (h .argument) operands).bind
  intro arguments
  apply (threshold_call hmax hmax' hverbosity (h .body body) (.called params body arguments)
    (.ofList (params.zip arguments))).congr
  intro state
  rw [Room.inside_none, ending_record, if_pos (fits_none _ _)]
  rfl

theorem threshold_apply (operator : Value) (operands : List Expr) :
    Threshold limit (heightOfApply config none eval height operands operator)
      (apply config none eval operator operands) (apply config' none eval' operator operands) := by
  cases operator with
  | bool value => exact .throw _
  | op op => exact threshold_applyOperator h op operands
  | lambda params body =>
      exact threshold_applyLambda hmax hmax' hverbosity h params body operands

/-- Every rule has the height as its threshold, if the expressions inside have theirs. -/
theorem threshold_rule (expr : Expr) :
    Threshold limit (heightOfRule config none eval height expr) (rule config none eval expr)
      (rule config' none eval' expr) := by
  cases expr with
  | bool value => exact .pure _
  | op op => exact .pure _
  | lambda params body => exact .pure _
  | ident name => exact .of_ending (ending_lookup name)
  | hole => exact .throw _
  | call operator operands =>
      apply (h .operator operator).bind
      intro value
      exact threshold_apply hmax hmax' hverbosity h value operands
  | cond test yes no =>
      apply (h .test test).bind
      intro value
      exact threshold_choose hverbosity h test yes no value
  | define name body =>
      apply (h .definition body).before
      intro value
      apply (threshold_define name value).before
      intro _
      rw [record_eq hverbosity]
      apply (threshold_record _ (.defined name value)).before
      intro _
      exact .pure value

end

include hmax hmax' hverbosity in
/-- An evaluation has the height of its calls as its threshold. -/
theorem threshold_eval (nesting : Nat) (expr : Expr) :
    Threshold limit (callHeight config nesting none expr) (eval config nesting none expr)
      (eval config' nesting none expr) := by
  -- on the nesting, as evaluation: the bodies that are called are no parts of the expression
  induction nesting generalizing expr with
  | zero => exact .throw _
  | succ nesting ih =>
      exact (threshold_rule hmax hmax' hverbosity (fun _ => ih) expr).recorded hverbosity none
        (.visited expr)

end

end Evaluation

namespace Expr

open Evaluation

/-- How many calls are active at a time, at most, while an expression is evaluated in an
environment. -/
def callHeight (config : Config) (expr : Expr) (env : Env) : Nat :=
  Evaluation.callHeight config config.nesting config.room expr (.start env)

/-- The greatest number of active calls that the evaluation of an expression has counted. -/
def callPeak (config : Config) (expr : Expr) (env : Env) : Nat :=
  (ending (eval config config.nesting config.room expr) (.start env)).2.peak

variable {config : Config} {expr : Expr} {env : Env} {limit nesting nesting' : Nat}

/-- The thresholds of an evaluation in which nothing is limited but nesting. -/
theorem threshold_withLimits (config : Config) (expr : Expr) (limit nesting : Nat) :
    Threshold limit (Evaluation.callHeight (config.withLimits none nesting) nesting none expr)
      (eval (config.withLimits none nesting) nesting none expr)
      (eval (config.withLimits (some limit) nesting) nesting none expr) := by
  apply threshold_eval
  · rfl
  · rfl
  · rfl

theorem callPeak_eq : expr.callPeak (config.withLimits none nesting) env =
    expr.callHeight (config.withLimits none nesting) env := by
  have hpeak := (threshold_withLimits config expr 0 nesting).peak_eq (.start env) (Nat.le_refl 0)
  rw [callPeak, callHeight]
  exact hpeak.trans ((Nat.zero_max _).trans (Nat.zero_add _))

theorem evaluate_of_callHeight_le
    (h : expr.callHeight (config.withLimits none nesting) env ≤ limit) :
    expr.evaluate (config.withLimits (some limit) nesting) env =
      expr.evaluate (config.withLimits none nesting) env := by
  have hfits := (threshold_withLimits config expr limit nesting).fits (.start env)
    ((Nat.zero_add _).trans_le h)
  rw [evaluate_eq, evaluate_eq]
  exact congrArg (fun ends => Outcome.mk ends.1 ends.2.env ends.2.events.toList) hfits

theorem evaluate_of_lt_callHeight
    (h : limit < expr.callHeight (config.withLimits none nesting) env) :
    (expr.evaluate (config.withLimits (some limit) nesting) env).result =
      .error (.callDepth limit) := by
  rw [evaluate_eq]
  exact (threshold_withLimits config expr limit nesting).exceeds (.start env) (Nat.zero_le limit)
    (h.trans_eq (Nat.zero_add _).symm)

/-- With a limit on calls, an evaluation that would not end without one runs into the limit. -/
theorem evaluate_of_endless
    (h : (expr.evaluate (config.withLimits none nesting) env).result = .error .nesting)
    (henough : (limit + 1) * heightAll (expr :: env.bodies) ≤ nesting) :
    (expr.evaluate (config.withLimits (some limit) nesting) env).result =
      .error (.callDepth limit) := by
  apply evaluate_of_lt_callHeight
  by_contra hle
  -- under the limit it would be as endless as without one, but the nesting is enough
  have hends : (expr.evaluate (config.withLimits (some limit) nesting) env).result ≠
      .error .nesting := evaluate_ne_nesting henough
  rw [evaluate_of_callHeight_le (Nat.le_of_not_lt hle)] at hends
  exact hends h

/-- An evaluation that does not run into a limit runs into no higher one. -/
theorem evaluate_of_limit_le {larger : Nat}
    (h : (expr.evaluate (config.withLimits (some limit) nesting) env).result ≠
      .error (.callDepth limit)) (hle : limit ≤ larger) :
    expr.evaluate (config.withLimits (some larger) nesting) env =
      expr.evaluate (config.withLimits (some limit) nesting) env := by
  have hheight : expr.callHeight (config.withLimits none nesting) env ≤ limit := by
    by_contra hlt
    exact h (evaluate_of_lt_callHeight (Nat.lt_of_not_le hlt))
  rw [evaluate_of_callHeight_le hheight, evaluate_of_callHeight_le (hheight.trans hle)]

/-- The greatest number of calls that are active at a time, in an evaluation that ends without a
limit on them, is the threshold for limits: a limit that is not below it changes nothing, whatever
the nesting, and a lower one ends the evaluation with an error of its own. An evaluation that does
not end without a limit runs into every limit. So what does not run into a limit is the same under
every higher one. -/
theorem evaluate_callDepth_threshold (config : Config) (expr : Expr) (env : Env) :
    (∀ nesting,
      let free := config.withLimits none nesting
      (expr.evaluate free env).result ≠ .error .nesting →
        expr.callPeak free env = expr.callHeight free env ∧
        ∀ limit more,
          let outcome := expr.evaluate (config.withLimits (some limit) (nesting + more)) env
          (expr.callHeight free env ≤ limit → outcome = expr.evaluate free env) ∧
          (limit < expr.callHeight free env → outcome.result = .error (.callDepth limit))) ∧
    ((∀ nesting, (expr.evaluate (config.withLimits none nesting) env).result = .error .nesting) →
      ∀ limit more,
        let nesting := (limit + 1) * heightAll (expr :: env.bodies) + more
        (expr.evaluate (config.withLimits (some limit) nesting) env).result =
          .error (.callDepth limit)) ∧
    (∀ limit nesting,
      let outcome := expr.evaluate (config.withLimits (some limit) nesting) env
      outcome.result ≠ .error .nesting → outcome.result ≠ .error (.callDepth limit) →
        ∀ larger more, limit ≤ larger →
          expr.evaluate (config.withLimits (some larger) (nesting + more)) env = outcome) ∧
    ∀ limit : Nat,
      (EvalError.callDepth limit).message =
        "maximum call depth (" ++ limit.repr ++ ") exceeded" := by
  refine ⟨?ends, ?endless, ?larger, ?message⟩
  case ends =>
    intro nesting free hends
    refine ⟨callPeak_eq, ?_⟩
    intro limit more outcome
    constructor
    · intro hheight
      have hsame : expr.evaluate (config.withLimits (some limit) nesting) env =
          expr.evaluate free env := evaluate_of_callHeight_le hheight
      -- so it ends under the limit too, and more nesting changes nothing
      rw [← hsame] at hends ⊢
      exact evaluate_of_le hends (Nat.le_add_right nesting more)
    · intro hheight
      have hstops : (expr.evaluate (config.withLimits (some limit) nesting) env).result =
          .error (.callDepth limit) := evaluate_of_lt_callHeight hheight
      have hmore : outcome = expr.evaluate (config.withLimits (some limit) nesting) env :=
        evaluate_of_le (by rw [hstops]; nofun) (Nat.le_add_right nesting more)
      rw [hmore, hstops]
  case endless =>
    intro hendless limit more nesting
    exact evaluate_of_endless (hendless nesting) (Nat.le_add_right _ more)
  case larger =>
    intro limit nesting outcome hends hlimit larger more hle
    have hlarger := evaluate_of_limit_le hlimit hle
    have hmore : expr.evaluate (config.withLimits (some larger) (nesting + more)) env =
        expr.evaluate (config.withLimits (some larger) nesting) env :=
      evaluate_of_le (by rw [hlarger]; exact hends) (Nat.le_add_right nesting more)
    exact hmore.trans hlarger
  case message =>
    intro limit
    rfl

/-- Three lambdas: one that calls none, one that calls the first one, and one that calls itself. -/
def callers : Env :=
  .ofList [("f", .lambda ["x"] (.call (.op .not) [.ident "x"])),
    ("g", .lambda ["x"] (.call (.ident "f") [.ident "x"])),
    ("h", .lambda [] (.call (.ident "h") []))]

/-- A call of the second lambda with a call as its argument, and another call after it. -/
def callsInOrder : Expr :=
  .call (.op .and)
    [.call (.ident "g") [.call (.ident "f") [.bool true]], .call (.ident "g") [.bool false]]

/-- A call of the third lambda. -/
def endlessCall : Expr := .call (.ident "h") []

theorem ending_endlessCall (hmax : config.maxDepth = none) (nesting : Nat) (state : State)
    (h : state.env.get? "h" = some (.lambda [] endlessCall)) :
    (ending (eval config nesting none endlessCall) state).1 = .error .nesting := by
  induction nesting generalizing state with
  | zero => rfl
  | succ nesting ih =>
      cases nesting with
      | zero =>
          -- the call itself is begun, and there is nothing left for its operator
          change (ending (do
            record config none (.visited endlessCall)
            rule config none (fun _ => eval config 0 none) endlessCall) state).1 = _
          rw [ending_record_bind (fits_none _ _)]
          rfl
      | succ nesting =>
          let before :=
            (state.recorded config (.visited endlessCall)).recorded config (.visited (.ident "h"))
          have hoperator : ending (eval config (nesting + 1) none (.ident "h"))
              (state.recorded config (.visited endlessCall)) =
                (.ok (.lambda [] endlessCall), before) := by
            change ending (do record config none (.visited (.ident "h")); lookup "h") _ = _
            have hbefore : before.env.get? "h" = _ := h
            rw [ending_record_bind (fits_none _ _), ending_lookup, hbefore]
          change (ending (do
            record config none (.visited endlessCall)
            let value ← eval config (nesting + 1) none (.ident "h")
            apply config none (fun _ => eval config (nesting + 1) none) value []) state).1 = _
          rw [ending_record_bind (fits_none _ _), ending_bind, hoperator]
          change (ending (do
            checkDepth config
            record config none (.called [] endlessCall [])
            within .empty (eval config (nesting + 1) none endlessCall)) before).1 = _
          rw [ending_call]
          · -- the call finds itself in the body of itself
            apply ih
            rw [State.enter, Env.get?_enter]
            exact h
          · intro limit hlimit
            rw [hmax] at hlimit
            cases hlimit

/-- Two calls are active at a time: under a limit of two or seven the evaluation is as without one,
under a limit of one it ends with an error. The call that does not end runs into a limit of
three. -/
theorem evaluate_callDepth_threshold_callers :
    let free := ({} : Config).withLimits none 10
    let evaluate := fun (expr : Expr) (limit nesting : Nat) =>
      expr.evaluate (({} : Config).withLimits (some limit) nesting) callers
    callsInOrder.callPeak free callers = 2 ∧
      evaluate callsInOrder 2 15 = callsInOrder.evaluate free callers ∧
      (evaluate callsInOrder 1 15).result = .error (.callDepth 1) ∧
      (evaluate endlessCall 3 8).result = .error (.callDepth 3) ∧
      evaluate callsInOrder 7 15 = evaluate callsInOrder 2 10 := by
  intro free evaluate
  have hheight : callsInOrder.callHeight free callers = 2 := by decide +kernel
  have hends : (callsInOrder.evaluate free callers).result = .ok (.bool true) := by decide +kernel
  have hlimited : (evaluate callsInOrder 2 10).result = .ok (.bool true) := by decide +kernel
  have hendless : ∀ nesting,
      (endlessCall.evaluate (({} : Config).withLimits none nesting) callers).result =
        .error .nesting := by
    intro nesting
    rw [evaluate_eq]
    exact ending_endlessCall rfl nesting (.start callers) (by decide +kernel)
  have henough : (3 + 1) * heightAll (endlessCall :: callers.bodies) + 0 = 8 := by decide +kernel
  obtain ⟨hfree, -, hlarger, -⟩ := evaluate_callDepth_threshold {} callsInOrder callers
  obtain ⟨hpeak, hlimits⟩ := hfree 10 (by rw [hends]; nofun)
  obtain ⟨-, hunending, -, -⟩ := evaluate_callDepth_threshold {} endlessCall callers
  refine ⟨hpeak.trans hheight, ?_, ?_, ?_, ?_⟩
  · exact (hlimits 2 5).1 hheight.le
  · exact (hlimits 1 5).2 (by rw [hheight]; decide)
  · have hthree := hunending hendless 3 0
    rw [henough] at hthree
    exact hthree
  · exact hlarger 2 10 (by rw [hlimited]; nofun) (by rw [hlimited]; nofun) 7 5 (by decide)

end Expr

end PrefixLogic
