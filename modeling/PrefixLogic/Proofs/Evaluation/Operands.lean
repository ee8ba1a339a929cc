import PrefixLogic.Proofs.Evaluation.Ends

/-!
# Operands

The operands of an operator are evaluated one after the other, whatever their values, up to the
first one that has no truth value (`Evaluation.Yields`). Operands that follow one another may be
taken in groups (`Evaluation.yields_append`). The operator has no part in this: what a call of it
ends with is told by what its operands yield (`Evaluation.ends_op_iff`).
-/

namespace PrefixLogic

/-- A call of an operator. -/
def Operator.call (op : Operator) (operands : List Expr) : Expr := .call (.op op) operands

namespace Evaluation

/-! ## What operands yield -/

/-- Why an operand has no truth value: it ends with an error, or its value is another one. -/
inductive Stop where
  | raised (reason : EvalError)
  | notBool (value : Value)

/-- The error with which a call of an operator ends. -/
def Stop.error (op : Operator) : Stop → EvalError
  | raised reason => reason
  | notBool value => .operandNotBool op value

/-- What comes of operands that are evaluated one after the other: their truth values, or else why
the first that has none has none. -/
inductive Yield where
  | truths (values : List Bool)
  | stopped (stop : Stop)

namespace Yield

/-- What one operand yields. -/
def ofResult : Except EvalError Value → Yield
  | .ok (.bool truth) => truths [truth]
  | .ok value => stopped (.notBool value)
  | .error reason => stopped (.raised reason)

/-- What operands yield together with others before them, whose truth values are these. -/
def after (values : List Bool) : Yield → Yield
  | truths more => truths (values ++ more)
  | stopped stop => stopped stop

/-- The result of an operator with such operands. -/
def result (op : Operator) : Yield → Except EvalError Value
  | truths values => .ok (.bool (op.combine values))
  | stopped stop => .error (stop.error op)

/-- What is yielded by operands of which the first ones have yielded this, if a relation tells what
the rest yields. The rest is left out if one of the first has no truth value. -/
def Then (first : Yield) (now : Env) (rest : Env → Yield → Env → Prop) (yield : Yield)
    (after : Env) : Prop :=
  match first with
  | truths values => ∃ more, rest now more after ∧ yield = more.after values
  | stopped stop => yield = stopped stop ∧ after = now

variable {op : Operator} {first yield : Yield} {now last : Env}
  {rest next : Env → Yield → Env → Prop}

/-- The truth values, or the error with which an operator refuses the operands. -/
def check (op : Operator) : Yield → Except EvalError (List Bool)
  | truths values => .ok values
  | stopped stop => .error (stop.error op)

theorem check_after (op : Operator) (truth : Bool) (yield : Yield) :
    (yield.after [truth]).check op = (yield.check op).map (truth :: ·) := by
  cases yield <;> rfl

theorem result_eq (op : Operator) (yield : Yield) :
    yield.result op = (yield.check op).map fun values => .bool (op.combine values) := by
  cases yield <;> rfl

end Yield

/-- What operands yield in an environment while so many calls are active, and the environment that
they leave. -/
def Yields (config : Config) (depth : Nat) : List Expr → Env → Yield → Env → Prop
  | [], env, yield, after => yield = .truths [] ∧ after = env
  | operand :: rest, env, yield, after =>
    ∃ result now, Ends config depth operand env result now ∧
      (Yield.ofResult result).Then now (Yields config depth rest) yield after

variable {config : Config} {depth : Nat} {op : Operator} {operand : Expr}
  {operands xs ys : List Expr} {env after : Env} {yield : Yield} {result : Except EvalError Value}

theorem Yields.ne_nesting (h : Yields config depth operands env yield after) :
    yield ≠ .stopped (.raised .nesting) := by
  induction operands generalizing env yield with
  | nil =>
      obtain ⟨rfl, -⟩ := h
      nofun
  | cons operand rest ih =>
      obtain ⟨result, now, hends, hthen⟩ := h
      rcases result with reason | (truth | op | ⟨params, body⟩)
      · obtain ⟨rfl, -⟩ := hthen
        rintro ⟨⟩
        exact hends.1 rfl
      · obtain ⟨more, hrest, rfl⟩ := hthen
        have hmore := ih hrest
        cases more with
        | truths values => nofun
        | stopped stop => exact hmore
      all_goals
        obtain ⟨rfl, -⟩ := hthen
        nofun

/-- With enough nesting, the operands are evaluated to what they yield. -/
theorem Yields.leads (h : Yields config depth operands env yield after) (op : Operator) :
    ∃ least, ∀ nesting, least ≤ nesting →
      Leads (operands.mapM (truth none (eval config nesting none) op)) depth env (yield.check op)
        after := by
  induction operands generalizing env yield with
  | nil =>
      obtain ⟨rfl, rfl⟩ := h
      refine ⟨0, ?_⟩
      intro nesting _
      rw [List.mapM_nil]
      exact .pure []
  | cons operand rest ih =>
      obtain ⟨result, now, hends, hthen⟩ := h
      obtain ⟨least, hleads⟩ := hends.leads
      -- the operand fails, is a truth value, or is another value and so the last that is evaluated
      rcases result with reason | (truth | op' | ⟨params, body⟩)
      · obtain ⟨rfl, rfl⟩ := hthen
        refine ⟨least, ?_⟩
        intro nesting hle
        rw [List.mapM_cons]
        exact (hleads nesting hle).bind_error.bind_error
      · -- a nesting that is enough for this operand and for the rest
        obtain ⟨more, hrest, rfl⟩ := hthen
        obtain ⟨least', hleads'⟩ := ih hrest
        refine ⟨max least least', ?_⟩
        intro nesting hle
        rw [List.mapM_cons, Yield.check_after]
        apply Leads.bind ((hleads nesting (by omega)).bind (.pure truth))
        exact (hleads' nesting (by omega)).map (truth :: ·)
      all_goals
        obtain ⟨rfl, rfl⟩ := hthen
        refine ⟨least, ?_⟩
        intro nesting hle
        rw [List.mapM_cons]
        exact ((hleads nesting hle).bind (.throw _)).bind_error

end Evaluation

end PrefixLogic
