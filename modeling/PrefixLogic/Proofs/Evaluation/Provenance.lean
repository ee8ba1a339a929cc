import PrefixLogic.Proofs.Evaluation.Activation

/-!
# Where lambdas stem from

Evaluation makes no code. A lambda that comes up during an evaluation, as a value of an expression
inside it or as a binding that is visible there, was visible at the start, or it occurs as it is in
the evaluated expression or in the body of a lambda that was visible at the start
(`Expr.evaluate_stemsFrom`). That holds in the scopes of all calls, for arguments as for results,
and also if the evaluation ends with an error.
-/

namespace PrefixLogic

open Evaluation (Inside evaluate_eq)

namespace Expr

/-- The expressions in which an expression occurs, as a part at any depth or inside a lambda. -/
inductive OccursIn (expr : Expr) : Expr → Prop
  | self : OccursIn expr expr
  | part {outer inner : Expr} : OccursIn expr inner → inner ∈ outer.parts → OccursIn expr outer
  | body {params : List String} {inner : Expr} : OccursIn expr inner →
      OccursIn expr (.lambda params inner)

theorem OccursIn.trans {expr inner outer : Expr} (h : expr.OccursIn inner)
    (h' : inner.OccursIn outer) : expr.OccursIn outer := by
  induction h' with
  | self => exact h
  | part _ hmem ih => exact .part ih hmem
  | body _ ih => exact .body ih

/-- The lambdas that are there when an expression is evaluated in an environment: those that are
visible, and those that occur in the expression or in the body of one that is visible. -/
def Supplies (expr : Expr) (env : Env) (params : List String) (body : Expr) : Prop :=
  (∃ name, env.get? name = some (.lambda params body)) ∨
  (lambda params body).OccursIn expr ∨
  ∃ name params' body', env.get? name = some (.lambda params' body') ∧
    (lambda params body).OccursIn body'

end Expr

/-- A value that is no other lambda than those that are there when an expression is evaluated in an
environment. -/
def Value.StemsFrom (value : Value) (expr : Expr) (env : Env) : Prop :=
  ∀ params body, value = .lambda params body → expr.Supplies env params body

namespace Expr

variable {expr : Expr} {env : Env}

theorem Supplies.of_occursIn {params params' : List String} {body body' : Expr}
    (h : expr.Supplies env params body) (h' : (lambda params' body').OccursIn body) :
    expr.Supplies env params' body' := by
  rcases h with ⟨name, hget⟩ | hexpr | ⟨name, params'', body'', hget, hbody⟩
  · exact .inr (.inr ⟨name, params, body, hget, h'⟩)
  · exact .inr (.inl (h'.body.trans hexpr))
  · exact .inr (.inr ⟨name, params'', body'', hget, h'.body.trans hbody⟩)

/-- Code that has no other lambdas in it than those that are there. -/
theorem carried_supplies (expr : Expr) (env : Env) :
    Carried
      (fun code => ∀ params body, (lambda params body).OccursIn code →
        expr.Supplies env params body)
      (fun value => value.StemsFrom expr env) where
  bool _ := nofun
  op _ := nofun
  lambda := by
    rintro params body hcode _ _ ⟨⟩
    exact hcode params body .self
  body := by
    intro params body hvalue params' body' hoccurs
    exact (hvalue params body rfl).of_occursIn hoccurs
  part := by
    intro code hcode part hmem params body hoccurs
    exact hcode params body (hoccurs.part hmem)

/-- Whatever comes up while an expression is evaluated in an environment stems from them: every
value of an evaluation inside it, whether of an operand, of a body or of a definition, and every
value that is visible where such an evaluation begins or ends, whether it was bound by a definition
or as an argument of a call. So does the value of the expression, and what is visible afterwards. -/
theorem evaluate_stemsFrom (config : Config) (expr : Expr) (env : Env) :
    let outcome := expr.evaluate config env
    (∀ value, outcome.result = .ok value → value.StemsFrom expr env) ∧
    (∀ name value, outcome.env.get? name = some value → value.StemsFrom expr env) ∧
    ∀ inner, Inside config (.start config expr env) inner →
      (∀ name value, inner.state.env.get? name = some value → value.StemsFrom expr env) ∧
      (∀ value, (inner.ends config).1 = .ok value → value.StemsFrom expr env) ∧
      ∀ name value, (inner.ends config).2.env.get? name = some value →
        value.StemsFrom expr env := by
  have hshows : env.Shows (fun _ => True) fun value => value.StemsFrom expr env := by
    rintro name - value hget params body rfl
    exact .inl ⟨name, hget⟩
  have hcode : ∀ params body, (lambda params body).OccursIn expr →
      expr.Supplies env params body := fun params body hoccurs => .inr (.inl hoccurs)
  have hinside : ∀ inner, Inside config (.start config expr env) inner →
      (∀ name value, inner.state.env.get? name = some value → value.StemsFrom expr env) ∧
      (∀ value, (inner.ends config).1 = .ok value → value.StemsFrom expr env) ∧
      ∀ name value, (inner.ends config).2.env.get? name = some value →
        value.StemsFrom expr env := by
    intro inner hinner
    obtain ⟨hcode', hshows'⟩ := hinner.carried (carried_supplies expr env) hcode hshows
    obtain ⟨hvalue, hafter⟩ := inner.ends_carried (carried_supplies expr env) hcode' hshows'
    exact ⟨fun name => hshows' name trivial, hvalue, fun name => hafter name trivial⟩
  obtain ⟨-, hvalue, hafter⟩ := hinside _ .self
  rw [evaluate_eq]
  exact ⟨hvalue, hafter, hinside⟩

/-- A lambda that returns a lambda. -/
def returning : Env := .ofList [("f", .lambda [] (.lambda ["x"] (.ident "x")))]

/-- The lambda that is returned by a call and then bound stems from the body of the called one, and
so it does inside the call. -/
theorem evaluate_stemsFrom_returning :
    let config : Config := { nesting := 4, room := none }
    let expr : Expr := .define "g" (.call (.ident "f") [])
    let returned : Value := .lambda ["x"] (.ident "x")
    let outcome := expr.evaluate config returning
    outcome.result = .ok returned ∧ outcome.env.get? "g" = some returned ∧
      returned.StemsFrom expr returning ∧
      ∃ inner, Inside config (.start config expr returning) inner ∧
        inner.expr = .lambda ["x"] (.ident "x") ∧ (inner.ends config).1 = .ok returned ∧
        ∀ value, (inner.ends config).1 = .ok value → value.StemsFrom expr returning := by
  intro config expr returned outcome
  obtain ⟨-, hafter, hinside⟩ := evaluate_stemsFrom config expr returning
  have hbound : outcome.env.get? "g" = some returned := by decide +kernel
  have hcall : Inside config (.start config expr returning)
      ⟨3, none, .call (.ident "f") [], _⟩ :=
    .step .self rfl (Evaluation.fits_none _ _) (.definition "g" _ _)
  have hbody := Inside.step hcall rfl (Evaluation.fits_none _ _)
    (.body rfl rfl rfl rfl (Evaluation.fits_none _ _))
  exact ⟨by decide +kernel, hbound, hafter "g" returned hbound, _, hbody, rfl, rfl,
    (hinside _ hbody).2.1⟩

end Expr

end PrefixLogic
