import PrefixLogic.Proofs.Evaluation.Footprint

/-!
# Independent expressions

What an expression may read depends on the environment: the names that stand for values in it, and
those in the bodies of the lambdas that are found under such names (`Expr.Reads`). Two expressions
are independent if neither defines a name that the other one defines or may read. Then it does not
matter which of them is evaluated first (`Expr.evaluate_comm`), also if one of them fails after some
of its definitions: it changes nothing that the other one reads, and by that neither what the other
one may read.
-/

namespace PrefixLogic

namespace Expr

/-- The names that the evaluation of an expression may read in an environment: those that stand for
values in it, and those in the bodies of the lambdas that the environment shows under such names. -/
inductive Reads (expr : Expr) (env : Env) : String → Prop
  | ident {name : String} : name ∈ expr.identNames → Reads expr env name
  | body {name inner : String} {params : List String} {body : Expr} :
    Reads expr env name → env.get? name = some (.lambda params body) → inner ∈ body.identNames →
    Reads expr env inner

/-- Neither of two expressions defines a name that the other one defines or may read. -/
structure Independent (expr other : Expr) (env : Env) : Prop where
  defines : ∀ name ∈ expr.definedNames, name ∉ other.definedNames
  reads : ∀ name ∈ other.definedNames, ¬expr.Reads env name
  reads' : ∀ name ∈ expr.definedNames, ¬other.Reads env name

variable {config : Config} {expr other : Expr} {env env' : Env} {name : String}

theorem Independent.symm (h : expr.Independent other env) : other.Independent expr env where
  defines name hother hexpr := h.defines name hexpr hother
  reads := h.reads'
  reads' := h.reads

/-- The names that may be read are the fewest ones: a list has them all if it has those in the
expression and, with a name of a lambda, those in the body. -/
theorem Reads.mem {names : List String} (hexpr : ∀ name ∈ expr.identNames, name ∈ names)
    (hbodies : ∀ name ∈ names, ∀ body ∈ (env.get? name).bind Value.body?,
      ∀ inner ∈ body.identNames, inner ∈ names)
    (h : expr.Reads env name) : name ∈ names := by
  induction h with
  | ident hname => exact hexpr _ hname
  | @body name inner params body _ hget hinner ih =>
      have hbody : body ∈ (env.get? name).bind Value.body? := by
        rw [hget]
        rfl
      exact hbodies name ih body hbody inner hinner

theorem shows_reads (expr : Expr) (env : Env) :
    env.Shows (expr.Reads env) fun value =>
      ∀ body ∈ value.body?, ∀ name ∈ body.identNames, expr.Reads env name := by
  intro name hname value hget body hbody inner hinner
  cases value with
  | lambda params lambdaBody =>
      obtain rfl : lambdaBody = body := Option.some.inj hbody
      exact hname.body hget hinner
  | bool truth => cases hbody
  | op op => cases hbody

/-- Where the names that it may read have the same values, an expression does the same. -/
theorem evaluate_of_reads (hagree : ∀ name, expr.Reads env name → env'.get? name = env.get? name) :
    (expr.evaluate config env').result = (expr.evaluate config env).result ∧
      (expr.evaluate config env').trace = (expr.evaluate config env).trace ∧
      expr.bindings config env' = expr.bindings config env := by
  have hexpr : ∀ name ∈ expr.identNames, expr.Reads env name := fun _ => .ident
  obtain ⟨hresult, htrace, -⟩ :=
    Evaluation.evaluate_of_agreeing hexpr (expr.shows_reads env) hagree False.elim
  refine ⟨hresult, htrace, ?_⟩
  -- what is bound is seen in further scopes, which show the same names
  have hshows : (env.enter .empty).Shows (expr.Reads env) fun value =>
      ∀ body ∈ value.body?, ∀ name ∈ body.identNames, expr.Reads env name := by
    intro name hname value hget
    rw [Env.get?_enter_empty] at hget
    exact expr.shows_reads env name hname value hget
  have hagree' : ∀ name, expr.Reads env name →
      (env'.enter .empty).get? name = (env.enter .empty).get? name := by
    intro name hname
    rw [Env.get?_enter_empty, Env.get?_enter_empty, hagree name hname]
  have hsame : True → (env'.enter .empty).inner = (env.enter .empty).inner := fun _ => rfl
  exact (Evaluation.evaluate_of_agreeing hexpr hshows hagree' hsame).2.2.2 trivial

/-- An evaluation leaves names alone that it does not define. -/
theorem get?_env_evaluate_of_not_mem (h : name ∉ expr.definedNames) :
    (expr.evaluate config env).env.get? name = env.get? name := by
  obtain ⟨houter, hgrows⟩ := Store.evaluate_env config expr env
  have hinner : (expr.evaluate config env).env.inner.get? name = env.inner.get? name := by
    by_contra hne
    exact h (hgrows.mem_of_get?_ne name hne)
  rw [Env.get?_eq_inner_or, Env.get?_eq_inner_or, hinner, houter]

namespace Independent

/-- An expression does the same after one that is independent of it. -/
theorem evaluate_after (h : expr.Independent other env) (config : Config) :
    let after := (other.evaluate config env).env
    (expr.evaluate config after).result = (expr.evaluate config env).result ∧
      (expr.evaluate config after).trace = (expr.evaluate config env).trace ∧
      expr.bindings config after = expr.bindings config env := by
  apply evaluate_of_reads
  intro name hreads
  apply get?_env_evaluate_of_not_mem
  intro hdefined
  exact h.reads name hdefined hreads

/-- Names that are not defined before have the values that the expression would have given them. -/
theorem get?_after (h : expr.Independent other env) (config : Config)
    (hname : name ∉ other.definedNames) :
    (expr.evaluate config (other.evaluate config env).env).env.get? name =
      (expr.evaluate config env).env.get? name := by
  obtain ⟨-, -, hbindings⟩ := h.evaluate_after config
  rw [get?_env_evaluate, hbindings, get?_env_evaluate_of_not_mem hname, ← get?_env_evaluate]

end Independent

/-- Independent expressions commute: whichever of them is evaluated first, both have the same
outcomes, traces included, and every name has the same value afterwards. -/
theorem evaluate_comm (config : Config) (h : expr.Independent other env) :
    let first := expr.evaluate config env
    let second := other.evaluate config first.env
    let first' := other.evaluate config env
    let second' := expr.evaluate config first'.env
    second'.result = first.result ∧ second'.trace = first.trace ∧
      second.result = first'.result ∧ second.trace = first'.trace ∧
      ∀ name, second'.env.get? name = second.env.get? name := by
  intro first second first' second'
  obtain ⟨hresult, htrace, -⟩ := h.evaluate_after config
  obtain ⟨hresult', htrace', -⟩ := h.symm.evaluate_after config
  refine ⟨hresult, htrace, hresult', htrace', ?_⟩
  intro name
  by_cases hother : name ∈ other.definedNames
  · -- the other expression defines the name, in both orders to the same value
    have hexpr : name ∉ expr.definedNames := fun hexpr => h.defines name hexpr hother
    have hsecond : second.env.get? name = first'.env.get? name := h.symm.get?_after config hexpr
    rw [hsecond]
    exact get?_env_evaluate_of_not_mem hexpr
  · have hsecond : second.env.get? name = first.env.get? name :=
      get?_env_evaluate_of_not_mem hother
    rw [hsecond]
    exact h.get?_after config hother

/-- One expression calls a lambda, binds a name to its value and fails after that. The other one
binds a name anew that is visible in an outer scope. -/
theorem evaluate_comm_layered :
    let expr : Expr :=
      .call (.op .and) [.define "a" (.call (.ident "f") [.bool true]), .ident "v"]
    let other : Expr := .define "u" (.call (.op .not) [.ident "u"])
    let last := (other.evaluate {} (expr.evaluate {} layered).env).env
    let last' := (expr.evaluate {} (other.evaluate {} layered).env).env
    (expr.evaluate {} (other.evaluate {} layered).env).result = .error (.notDefined "v") ∧
      (other.evaluate {} (expr.evaluate {} layered).env).result = .ok (.bool false) ∧
      last.get? "a" = some (.bool true) ∧ last.get? "u" = some (.bool false) ∧
      ∀ name, last'.get? name = last.get? name := by
  intro expr other last last'
  have hindependent : expr.Independent other layered := by
    refine ⟨by decide +kernel, ?_, ?_⟩
    · intro name hname hreads
      have hdisjoint : ∀ name ∈ other.definedNames, name ∉ ["f", "v", "x", "z"] := by
        decide +kernel
      exact hdisjoint name hname (hreads.mem (by decide +kernel) (by decide +kernel))
    · intro name hname hreads
      have hdisjoint : ∀ name ∈ expr.definedNames, name ∉ ["u"] := by decide +kernel
      exact hdisjoint name hname (hreads.mem (by decide +kernel) (by decide +kernel))
  obtain ⟨hresult, -, hresult', -, hlast⟩ := evaluate_comm {} hindependent
  have hfirst : (expr.evaluate {} layered).result = .error (.notDefined "v") := by decide +kernel
  have hfirst' : (other.evaluate {} layered).result = .ok (.bool false) := by decide +kernel
  exact ⟨hresult.trans hfirst, hresult'.trans hfirst', by decide +kernel, by decide +kernel, hlast⟩

end Expr

end PrefixLogic
