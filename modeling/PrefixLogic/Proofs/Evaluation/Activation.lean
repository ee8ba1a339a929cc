import PrefixLogic.Proofs.Evaluation.Correspondence

/-!
# Evaluations inside an evaluation

To evaluate an expression, others are evaluated: the parts of it that are needed, one after the
other, and the body of the lambda that it calls. `Evaluation.Begins` lists them for each form of
expression, with the states in which they begin. `Evaluation.Inside` goes on with those inside them.

What evaluation carries from code to values, each evaluation inside begins with
(`Evaluation.Inside.carried`).
-/

namespace PrefixLogic.Evaluation

variable {config : Config} {α : Type}

/-! ## Evaluations that a rule needs -/

/-- The evaluations that begin while the rule for an expression is followed from a state: of which
expression, at which place, and in which state. An operand or an argument is evaluated when those
before it have been, and a body when all arguments have been and a further call may begin. There
must be room to record a call and the choice of a branch. -/
inductive Begins (config : Config) (room : Room) (eval : Place → Expr → Run Value) :
    Expr → State → Place → Expr → State → Prop
  | operator (operator : Expr) (operands : List Expr) (state : State) :
    Begins config room eval (.call operator operands) state .operator operator state
  | operand {operator operand : Expr} {before rest : List Expr} {op : Operator}
      {values : List Bool} {state applied now : State} :
    ending (eval .operator operator) state = (.ok (.op op), applied) →
    ending (checkOperandCount op (before ++ operand :: rest)) applied = (.ok (), applied) →
    ending (before.mapM (truth (room.inside (.operand op)) (eval (.operand op)) op)) applied =
      (.ok values, now) →
    Begins config room eval (.call operator (before ++ operand :: rest)) state (.operand op)
      operand now
  | argument {operator operand body : Expr} {before rest : List Expr} {params : List String}
      {values : List Value} {state applied now : State} :
    ending (eval .operator operator) state = (.ok (.lambda params body), applied) →
    ending (checkArgumentCount params (before ++ operand :: rest)) applied = (.ok (), applied) →
    ending (before.mapM (eval .argument)) applied = (.ok values, now) →
    Begins config room eval (.call operator (before ++ operand :: rest)) state .argument operand now
  | body {operator body : Expr} {operands : List Expr} {params : List String}
      {arguments : List Value} {state applied now : State} :
    ending (eval .operator operator) state = (.ok (.lambda params body), applied) →
    ending (checkArgumentCount params operands) applied = (.ok (), applied) →
    ending (operands.mapM (eval .argument)) applied = (.ok arguments, now) →
    ending (checkDepth config) now = (.ok (), now) →
    Fits config (room.inside .body) (.called params body arguments) →
    Begins config room eval (.call operator operands) state .body body
      ((now.recorded config (.called params body arguments)).enter
        (.ofList (params.zip arguments)))
  | test (test yes no : Expr) (state : State) :
    Begins config room eval (.cond test yes no) state .test test state
  | branch {test yes no : Expr} {truth : Bool} {state tested : State} :
    ending (eval .test test) state = (.ok (.bool truth), tested) →
    Fits config (room.inside .branch) (.decided test truth) →
    Begins config room eval (.cond test yes no) state .branch (if truth then yes else no)
      (tested.recorded config (.decided test truth))
  | definition (name : String) (body : Expr) (state : State) :
    Begins config room eval (.define name body) state .definition body state

/-! ## Evaluations at any depth -/

/-- An evaluation that begins: of which expression, in which state, with how much nesting and room
left. -/
structure Activation where
  nesting : Nat
  room : Room
  expr : Expr
  state : State

/-- The evaluation of an expression in an environment. -/
def Activation.start (config : Config) (expr : Expr) (env : Env) : Activation :=
  ⟨config.nesting, config.room, expr, .start env⟩

/-- How an evaluation ends, and in which state. -/
def Activation.ends (config : Config) (activation : Activation) : Except EvalError Value × State :=
  ending (eval config activation.nesting activation.room activation.expr) activation.state

/-- The evaluations that take place inside another one, which is one of them. -/
inductive Inside (config : Config) (outer : Activation) : Activation → Prop
  | self : Inside config outer outer
  | step {nesting : Nat} {room : Room} {expr inner : Expr} {state now : State} {place : Place} :
    Inside config outer ⟨nesting + 1, room, expr, state⟩ → room.isUsedUp = false →
    Fits config (room.less 1) (.visited expr) →
    Begins config room (fun place => eval config nesting (room.inside place)) expr
      (state.recorded config (.visited expr)) place inner now →
    Inside config outer ⟨nesting, room.inside place, inner, now⟩

/-! ## Code and values -/

section

variable {code : Expr → Prop} {value : Value → Prop}

/-- An evaluation that follows code and values, whatever its errors are. -/
def following (config : Config) (hcarried : Carried code value) : Correspondence config config :=
  @Correspondence.ofCarried config code value (fun _ => True) hcarried fun _ => trivial

/-- A run that follows code and values ends with what it follows. -/
theorem shows_of_runs (hcarried : Carried code value) {property : α → Prop} {run : Run α}
    {state after : State} {result : Except EvalError α}
    (h : (following config hcarried).Runs state.depth property run run)
    (hshows : state.env.Shows (fun _ => True) value) (hends : ending run state = (result, after)) :
    (∀ found, result = .ok found → property found) ∧ after.env.Shows (fun _ => True) value := by
  obtain ⟨hresult, hafter⟩ := Correspondence.ends_of_runs hcarried (fun _ => trivial) state h hshows
  rw [hends] at hresult hafter
  refine ⟨?_, hafter⟩
  rintro found rfl
  exact hresult

/-- What begins while a rule is followed begins with code and values as they are followed. -/
theorem Begins.carried (hcarried : Carried code value) {room : Room}
    {eval : Place → Expr → Run Value} {expr inner : Expr} {state now : State} {place : Place}
    (h : Begins config room eval expr state place inner now)
    (heval : ∀ depth place expr, code expr →
      (following config hcarried).Runs depth value (eval place expr) (eval place expr))
    (hcode : code expr) (hshows : state.env.Shows (fun _ => True) value) :
    code inner ∧ now.env.Shows (fun _ => True) value := by
  have hpart := hcarried.part hcode
  have hfirst : ∀ {place part before result after}, code part →
      before.env.Shows (fun _ => True) value → ending (eval place part) before = (result, after) →
      (∀ found, result = .ok found → value found) ∧ after.env.Shows (fun _ => True) value :=
    fun hcode hshows hends => shows_of_runs hcarried (heval _ _ _ hcode) hshows hends
  cases h with
  | operator operator operands state => exact ⟨hpart _ List.mem_cons_self, hshows⟩
  | @operand operator _ before rest op values _ applied _ hoperator hcheck hbefore =>
      have hoperands : ∀ part ∈ before ++ inner :: rest, code part :=
        (List.forall_mem_cons.1 hpart).2
      obtain ⟨-, happlied⟩ := hfirst (hpart _ List.mem_cons_self) hshows hoperator
      have hruns := Correspondence.runs_mapM before fun part hmem =>
        Correspondence.runs_truth (.same (room.inside (.operand op)) trivial rfl) op
          (heval applied.depth (.operand op) part (hoperands part (List.mem_append_left _ hmem)))
      obtain ⟨-, hnow⟩ := shows_of_runs hcarried hruns happlied hbefore
      exact ⟨hoperands _ (List.mem_append_right _ List.mem_cons_self), hnow⟩
  | @argument operator _ body before rest params values _ applied _ hoperator hcheck hbefore =>
      have hoperands : ∀ part ∈ before ++ inner :: rest, code part :=
        (List.forall_mem_cons.1 hpart).2
      obtain ⟨-, happlied⟩ := hfirst (hpart _ List.mem_cons_self) hshows hoperator
      have hruns := Correspondence.runs_mapM before fun part hmem =>
        heval applied.depth .argument part (hoperands part (List.mem_append_left _ hmem))
      obtain ⟨-, hnow⟩ := shows_of_runs hcarried hruns happlied hbefore
      exact ⟨hoperands _ (List.mem_append_right _ List.mem_cons_self), hnow⟩
  | @body operator _ operands params arguments _ applied now hoperator hcheck harguments hdepth
      hfits =>
      have hoperands : ∀ part ∈ operands, code part := (List.forall_mem_cons.1 hpart).2
      obtain ⟨hlambda, happlied⟩ := hfirst (hpart _ List.mem_cons_self) hshows hoperator
      have hruns := Correspondence.runs_mapM operands fun part hmem =>
        heval applied.depth .argument part (hoperands part hmem)
      obtain ⟨hfound, hnow⟩ := shows_of_runs hcarried hruns happlied harguments
      -- the scope of the call binds nothing but the arguments
      exact ⟨hcarried.body (hlambda _ rfl), hnow.enter params (hfound _ rfl)⟩
  | test test yes no state => exact ⟨hpart _ List.mem_cons_self, hshows⟩
  | @branch test yes no truth _ tested htest hfits =>
      obtain ⟨-, htested⟩ := hfirst (hpart _ List.mem_cons_self) hshows htest
      refine ⟨?_, htested⟩
      cases truth with
      | true => exact hpart yes (by simp [Expr.parts])
      | false => exact hpart no (by simp [Expr.parts])
  | definition name body state => exact ⟨hpart _ List.mem_cons_self, hshows⟩

/-- An evaluation that begins with code and values as they are followed ends with such values. -/
theorem Activation.ends_carried (hcarried : Carried code value) (activation : Activation)
    (hcode : code activation.expr) (hshows : activation.state.env.Shows (fun _ => True) value) :
    (∀ found, (activation.ends config).1 = .ok found → value found) ∧
      (activation.ends config).2.env.Shows (fun _ => True) value :=
  shows_of_runs hcarried
    (Correspondence.runs_eval _ trivial (.inl rfl) (.same activation.room trivial rfl) hcode) hshows
    rfl

/-- An evaluation inside another one begins with code and values as they are followed. -/
theorem Inside.carried (hcarried : Carried code value) {outer inner : Activation}
    (h : Inside config outer inner) (hcode : code outer.expr)
    (hshows : outer.state.env.Shows (fun _ => True) value) :
    code inner.expr ∧ inner.state.env.Shows (fun _ => True) value := by
  induction h with
  | self => exact ⟨hcode, hshows⟩
  | step houter hroom hfits hbegins ih =>
      obtain ⟨hcode', hshows'⟩ := ih
      apply hbegins.carried hcarried _ hcode' hshows'
      intro depth place expr hexpr
      exact Correspondence.runs_eval _ trivial (.inl rfl) (.same _ trivial rfl) hexpr

end

end PrefixLogic.Evaluation
