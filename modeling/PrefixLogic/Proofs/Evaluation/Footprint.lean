import PrefixLogic.Proofs.Evaluation.Correspondence

/-!
# The names that evaluation reads

Evaluation reads no names but those that occur in the expression and in the bodies of the lambdas
that it finds under such names. In two environments that agree on all of these names, however they
are made up of scopes, it does the same: it ends with the same value or the same error, it binds
the same names to the same values, and it leaves environments that agree again
(`Expr.evaluate_of_agree`).

What an evaluation binds is seen when it runs in a further scope in which nothing is bound yet
(`Expr.bindings`).
-/

namespace PrefixLogic

/-! ## Names -/

namespace Expr

mutual

/-- The names that stand for values in an expression, also inside its lambdas. -/
def identNames : Expr → List String
  | bool _ | op _ | hole => []
  | ident name => [name]
  | lambda _ body | define _ body => body.identNames
  | call operator operands => operator.identNames ++ identNamesAll operands
  | cond test yes no => test.identNames ++ yes.identNames ++ no.identNames

/-- The names that stand for values in one of the expressions. -/
def identNamesAll : List Expr → List String
  | [] => []
  | expr :: rest => expr.identNames ++ identNamesAll rest

end

theorem identNames_subset_all {expr : Expr} :
    ∀ {exprs : List Expr}, expr ∈ exprs → expr.identNames ⊆ identNamesAll exprs
  | head :: rest, h => by
      rw [identNamesAll]
      rcases List.mem_cons.1 h with rfl | h
      · exact List.subset_append_left _ _
      · exact List.subset_append_of_subset_right _ (identNames_subset_all h)

theorem identNames_subset_of_mem_parts {expr part : Expr} (h : part ∈ expr.parts) :
    part.identNames ⊆ expr.identNames := by
  cases expr with
  | call operator operands =>
      rw [identNames]
      rcases List.mem_cons.1 h with rfl | h
      · exact List.subset_append_left _ _
      · exact List.subset_append_of_subset_right _ (identNames_subset_all h)
  | cond test yes no =>
      simp only [parts, List.mem_cons, List.not_mem_nil, or_false] at h
      rw [identNames]
      rcases h with rfl | rfl | rfl <;> simp
  | define name body =>
      rw [List.mem_singleton.1 h, identNames]
      exact List.Subset.refl _
  | _ => cases h

/-- What the evaluation of an expression binds in its environment. -/
def bindings (config : Config) (expr : Expr) (env : Env) : Scope :=
  (expr.evaluate config (env.enter .empty)).env.inner

end Expr

namespace Evaluation

variable {config config' : Config} {names : String → Prop}

/-- Code in which no other names stand for values. -/
theorem carried_identNames (names : String → Prop) :
    Carried (fun expr => ∀ name ∈ expr.identNames, names name)
      (fun value => ∀ body ∈ value.body?, ∀ name ∈ body.identNames, names name) := by
  apply Carried.ofCode
  · intro params body hnames
    rw [Expr.identNames] at hnames
    exact hnames
  · intro expr hnames part hmem name hname
    exact hnames name (Expr.identNames_subset_of_mem_parts hmem hname)

/-- Evaluations in environments that agree on some names, and whose innermost scopes are the same if
so required. -/
def agreeing (hmax : config'.maxDepth = config.maxDepth)
    (hverbosity : config'.verbosity = config.verbosity) (names : String → Prop)
    (sameInner : Prop) : Correspondence config config' where
  code expr := ∀ name ∈ expr.identNames, names name
  value value := ∀ body ∈ value.body?, ∀ name ∈ body.identNames, names name
  error _ := True
  stops _ := False
  state outer outer' :=
    (outer.env.Shows names fun value =>
      ∀ body ∈ value.body?, ∀ name ∈ body.identNames, names name) ∧
      (∀ name, names name → outer'.env.get? name = outer.env.get? name) ∧
      (sameInner → outer'.env.inner = outer.env.inner) ∧ outer'.events = outer.events
  maxDepth_eq := hmax
  carried := carried_identNames names
  error_arises _ := trivial
  get?_eq := by
    rintro name outer outer' hname ⟨-, hagree, -, -⟩
    exact hagree name (hname name List.mem_cons_self)
  value_get? := by
    rintro name outer outer' shown hname ⟨hshows, -, -, -⟩ hget
    exact hshows name (hname name List.mem_cons_self) shown hget
  recorded := by
    rintro event outer outer' - ⟨hshows, hagree, hinner, hevents⟩
    refine ⟨hshows, hagree, hinner, ?_⟩
    rw [State.recorded, State.recorded, hverbosity, hevents]
  insert := by
    rintro outer outer' name bound hbound ⟨hshows, hagree, hinner, hevents⟩
    refine ⟨hshows.insert name hbound, ?_, ?_, hevents⟩
    · intro other hother
      rw [Env.get?_insert, Env.get?_insert, hagree other hother]
    · intro hsame
      exact congrArg (·.insert name bound) (hinner hsame)
  enter := by
    rintro outer outer' params arguments harguments ⟨hshows, hagree, -, hevents⟩
    refine ⟨hshows.enter params harguments, ?_, fun _ => rfl, hevents⟩
    intro name hname
    rw [State.enter, State.enter, Env.get?_enter, Env.get?_enter, hagree name hname]
  leave := by
    -- all is as before the call, but for what it has recorded
    rintro outer outer' inner inner' ⟨hshows, hagree, hinner, -⟩ ⟨-, -, -, hevents⟩
    exact ⟨hshows, hagree, hinner, hevents⟩

theorem evaluate_of_agreeing {sameInner : Prop} {expr : Expr} {env env' : Env}
    (hexpr : ∀ name ∈ expr.identNames, names name)
    (hshows : env.Shows names fun value =>
      ∀ body ∈ value.body?, ∀ name ∈ body.identNames, names name)
    (hagree : ∀ name, names name → env'.get? name = env.get? name)
    (hinner : sameInner → env'.inner = env.inner) :
    let outcome := expr.evaluate config env
    let outcome' := expr.evaluate config env'
    outcome'.result = outcome.result ∧ outcome'.trace = outcome.trace ∧
      (∀ name, names name → outcome'.env.get? name = outcome.env.get? name) ∧
      (sameInner → outcome'.env.inner = outcome.env.inner) := by
  intro outcome outcome'
  obtain ⟨halike, -⟩ := (agreeing rfl rfl names sameInner).runs_eval trivial (.inl rfl)
    (.same config.room trivial rfl) hexpr (.start env) (.start env')
    ⟨⟨hshows, hagree, hinner, rfl⟩, rfl, rfl⟩
  obtain ⟨hresult, ⟨-, hafter, hinner', hevents⟩, -, -⟩ := halike.of_never fun _ => id
  have houtcome : outcome = _ := evaluate_eq config expr env
  have houtcome' : outcome' = _ := evaluate_eq config expr env'
  rw [houtcome, houtcome']
  exact ⟨hresult, congrArg Array.toList hevents, hafter, hinner'⟩

end Evaluation

namespace Expr

/-- A further scope in which nothing is bound changes nothing but where the new bindings are. -/
theorem get?_env_evaluate (config : Config) (expr : Expr) (env : Env) (name : String) :
    (expr.evaluate config env).env.get? name =
      ((expr.bindings config env).get? name).or (env.get? name) := by
  have hafter : ∀ other, True → (expr.evaluate config (env.enter .empty)).env.get? other =
      (expr.evaluate config env).env.get? other :=
    (Evaluation.evaluate_of_agreeing (fun _ _ => trivial) (fun _ _ _ _ _ _ _ _ => trivial)
      (fun other _ => env.get?_enter_empty other) False.elim).2.2.1
  obtain ⟨houter, -⟩ := Store.evaluate_env config expr (env.enter .empty)
  rw [← hafter name trivial, Env.get?_eq_inner_or, houter]
  rfl

/-- An evaluation in one of two environments that agree on the names that it reads does what it
does in the other one. The names contain those that stand for values in the expression, and those
in the bodies of the lambdas that the environment shows under them. The two evaluations end with
the same value or the same error, and leave environments that agree on these names and on those
that they bind; no other names have changed. -/
theorem evaluate_of_agree (config : Config) {expr : Expr} {names : String → Prop} {env env' : Env}
    (hexpr : ∀ name ∈ expr.identNames, names name)
    (hbodies : ∀ name, names name → ∀ params body,
      env.get? name = some (.lambda params body) → ∀ inner ∈ body.identNames, names inner)
    (hagree : ∀ name, names name → env'.get? name = env.get? name) :
    let outcome := expr.evaluate config env
    let outcome' := expr.evaluate config env'
    let bound := expr.bindings config env
    outcome'.result = outcome.result ∧ outcome'.trace = outcome.trace ∧
      (∀ name, outcome.env.get? name = (bound.get? name).or (env.get? name)) ∧
      (∀ name, outcome'.env.get? name = (bound.get? name).or (env'.get? name)) ∧
      ∀ name, names name ∨ bound.get? name ≠ none →
        outcome'.env.get? name = outcome.env.get? name := by
  intro outcome outcome' bound
  have hshows : env.Shows names fun value =>
      ∀ body ∈ value.body?, ∀ name ∈ body.identNames, names name := by
    intro name hname value hget body hbody
    cases value with
    | lambda params inner =>
        obtain rfl : inner = body := Option.some.inj hbody
        exact hbodies name hname params inner hget
    | bool truth => cases hbody
    | op op => cases hbody
  obtain ⟨hresult, htrace, hafter, -⟩ :=
    Evaluation.evaluate_of_agreeing hexpr hshows hagree False.elim
  -- in further scopes, the two evaluations bind the same
  have hbound : expr.bindings config env' = bound := by
    have hshows' : (env.enter .empty).Shows names fun value =>
        ∀ body ∈ value.body?, ∀ name ∈ body.identNames, names name := by
      intro name hname value hget
      rw [Env.get?_enter_empty] at hget
      exact hshows name hname value hget
    have hagree' : ∀ name, names name →
        (env'.enter .empty).get? name = (env.enter .empty).get? name := by
      intro name hname
      rw [Env.get?_enter_empty, Env.get?_enter_empty, hagree name hname]
    have hsame : True → (env'.enter .empty).inner = (env.enter .empty).inner := fun _ => rfl
    exact (Evaluation.evaluate_of_agreeing hexpr hshows' hagree' hsame).2.2.2
      trivial
  have hover : ∀ name, outcome.env.get? name = (bound.get? name).or (env.get? name) :=
    get?_env_evaluate config expr env
  have hover' : ∀ name, outcome'.env.get? name = (bound.get? name).or (env'.get? name) := by
    intro name
    rw [← hbound]
    exact get?_env_evaluate config expr env' name
  refine ⟨hresult, htrace, hover, hover', ?_⟩
  intro name hname
  rcases hname with hname | hname
  · exact hafter name hname
  · obtain ⟨value, hvalue⟩ := Option.ne_none_iff_exists'.1 hname
    rw [hover, hover', hvalue, Option.some_or, Option.some_or]

/-- Names that are visible in two scopes, and one that is read by nothing. -/
def layered : Env :=
  ⟨.ofList [("x", .bool false), ("z", .bool true)],
    [.ofList [("f", .lambda ["x"] (.call (.op .and) [.ident "x", .ident "z"])), ("u", .bool true)]]⟩

/-- The same names in one scope, among others. -/
def level : Env :=
  .ofList [("u", .bool false), ("z", .bool true), ("w", .lambda [] (.ident "u")),
    ("f", .lambda ["x"] (.call (.op .and) [.ident "x", .ident "z"])), ("x", .bool false)]

/-- The evaluation binds a name and fails after that, in both environments. The name that is not
read is as different afterwards as before. -/
theorem evaluate_of_agree_layered :
    let expr : Expr :=
      .call (.op .or) [.define "a" (.call (.ident "f") [.bool true]), .ident "x", .ident "v"]
    let outcome := expr.evaluate {} layered
    let outcome' := expr.evaluate {} level
    outcome.result = .error (.notDefined "v") ∧ outcome'.result = outcome.result ∧
      outcome.env.get? "a" = some (.bool true) ∧
      outcome'.env.get? "a" = outcome.env.get? "a" ∧
      outcome.env.get? "u" = some (.bool true) ∧ outcome'.env.get? "u" = some (.bool false) := by
  intro expr outcome outcome'
  let names := ["f", "x", "z", "v"]
  have hnames : ∀ name ∈ expr.identNames, name ∈ names := by decide +kernel
  have hbodies : ∀ name ∈ names, ∀ body ∈ (layered.get? name).bind Value.body?,
      ∀ inner ∈ body.identNames, inner ∈ names := by decide +kernel
  have hagree : ∀ name ∈ names, level.get? name = layered.get? name := by decide +kernel
  have hbound : (expr.bindings {} layered).get? "a" = some (.bool true) := by decide +kernel
  have hunbound : (expr.bindings {} layered).get? "u" = none := by decide +kernel
  have hshown : ∀ name ∈ names, ∀ params body, layered.get? name = some (.lambda params body) →
      ∀ inner ∈ body.identNames, inner ∈ names := by
    intro name hname params body hget
    exact hbodies name hname body (by rw [hget]; rfl)
  obtain ⟨hresult, -, hover, hover', hsame⟩ := evaluate_of_agree {} hnames hshown hagree
  refine ⟨by decide +kernel, hresult, ?_, hsame "a" (.inr (by rw [hbound]; nofun)), ?_, ?_⟩
  · rw [hover, hbound]
    rfl
  · rw [hover, hunbound]
    decide +kernel
  · rw [hover', hunbound]
    decide +kernel

end Expr

end PrefixLogic
