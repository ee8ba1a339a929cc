import PrefixLogic.Proofs.Evaluation.Activation
import PrefixLogic.Proofs.Evaluation.Frame

/-!
# Active calls

While an evaluation goes on, evaluations wait for others inside them. Those that wait for the body
of a lambda are the calls that are active (`Evaluation.Active`). The counter of the state counts
them, at the beginning of every evaluation and at its end, however it ends
(`Evaluation.Active.depth_eq`, `Evaluation.depth_ending_eval`), and never exceeds the limit
(`Evaluation.Active.depth_le`).
-/

namespace PrefixLogic.Evaluation

variable {config : Config} {α : Type}

/-- The calls that become active on the way to a place inside an expression. -/
def Place.calls : Place → Nat
  | body => 1
  | operator | operand _ | argument | test | branch | definition => 0

/-- The evaluations inside another one, each with the number of calls in between that wait for their
bodies. -/
inductive Active (config : Config) (outer : Activation) : Nat → Activation → Prop
  | self : Active config outer 0 outer
  | step {calls nesting : Nat} {room : Room} {expr inner : Expr} {state now : State}
    {place : Place} :
    Active config outer calls ⟨nesting + 1, room, expr, state⟩ → room.isUsedUp = false →
    Fits config (room.less 1) (.visited expr) →
    Begins config room (fun place => eval config nesting (room.inside place)) expr
      (state.recorded config (.visited expr)) place inner now →
    Active config outer (calls + place.calls) ⟨nesting, room.inside place, inner, now⟩

/-- Every evaluation inside another one has a number of active calls. -/
theorem inside_iff_active {outer inner : Activation} :
    Inside config outer inner ↔ ∃ calls, Active config outer calls inner := by
  constructor
  · intro h
    induction h with
    | self => exact ⟨0, .self⟩
    | step _ hroom hfits hbegins ih =>
        obtain ⟨calls, hactive⟩ := ih
        exact ⟨_, .step hactive hroom hfits hbegins⟩
  · rintro ⟨calls, h⟩
    induction h with
    | self => exact .self
    | step _ hroom hfits hbegins ih => exact .step ih hroom hfits hbegins

/-! ## The counter -/

/-- As many calls are counted in both states. -/
def SameDepth (before after : State) : Prop := after.depth = before.depth

instance : Std.Refl SameDepth := ⟨fun _ => rfl⟩

instance : IsTrans State SameDepth := ⟨fun _ _ _ h h' => h'.trans h⟩

theorem keepsDepth_of_framed {names : List String} {run : Run α} (h : Keeps (Framed names) run) :
    Keeps SameDepth run := fun state => (h state).depth_eq

/-- However an evaluation ends, as many calls are counted as when it began. -/
theorem depth_ending_eval (config : Config) (nesting : Nat) (room : Room) (expr : Expr)
    (state : State) : (ending (eval config nesting room expr) state).2.depth = state.depth :=
  keepsDepth_of_framed (keeps_eval config nesting room expr) state

theorem depth_eq_of_ending {run : Run α} (h : Keeps SameDepth run) {state after : State}
    {result : Except EvalError α} (hends : ending run state = (result, after)) :
    after.depth = state.depth := by
  have hkeeps := h state
  rw [hends] at hkeeps
  exact hkeeps

section

variable {room : Room} {eval : Place → Expr → Run Value} {expr inner : Expr}
  {state now : State} {place : Place}

/-- What begins inside an expression counts one call more, if it is a body. -/
theorem Begins.depth_eq (h : Begins config room eval expr state place inner now)
    (heval : ∀ place expr, Keeps (Framed expr.definedNames) (eval place expr)) :
    now.depth = state.depth + place.calls := by
  -- what is evaluated before the inner expression begins leaves the counter as it was
  have hoperator {operator : Expr} {value : Value} {applied : State}
      (hends : ending (eval .operator operator) state = (.ok value, applied)) :
      applied.depth = state.depth :=
    depth_eq_of_ending (keepsDepth_of_framed (heval .operator operator)) hends
  cases h with
  | operator operator operands state => rfl
  | test test yes no state => rfl
  | definition name body state => rfl
  | @branch test _ _ _ _ tested htest _ =>
      have htested := depth_eq_of_ending (keepsDepth_of_framed (heval .test test)) htest
      exact htested
  | @operand _ _ before _ op _ _ applied _ happlied _ hbefore =>
      have hbefore' := depth_eq_of_ending (.mapM before fun operand _ =>
        keepsDepth_of_framed (keeps_truth op (heval (.operand op) operand))) hbefore
      exact hbefore'.trans (hoperator happlied)
  | @argument _ _ _ before _ _ _ _ applied _ happlied _ hbefore =>
      have hbefore' := depth_eq_of_ending (.mapM before fun operand _ =>
        keepsDepth_of_framed (heval .argument operand)) hbefore
      exact hbefore'.trans (hoperator happlied)
  | @body _ _ operands _ _ _ applied called happlied _ harguments _ _ =>
      have harguments' := depth_eq_of_ending (.mapM operands fun operand _ =>
        keepsDepth_of_framed (heval .argument operand)) harguments
      exact congrArg (· + 1) (harguments'.trans (hoperator happlied))

/-- A body begins only if its call fits under the limit. -/
theorem Begins.depth_le (h : Begins config room eval expr state .body inner now) {limit : Int}
    (hlimit : config.maxDepth = some limit) : (now.depth : Int) ≤ limit := by
  cases h with
  | @body _ _ _ _ _ _ _ called _ _ _ hdepth _ =>
      rw [ending_checkDepth, hlimit] at hdepth
      dsimp only at hdepth
      by_cases hfits : (called.depth : Int) < limit
      · exact hfits
      · rw [if_neg hfits] at hdepth
        cases congrArg Prod.fst hdepth

end

namespace Active

variable {outer inner : Activation} {calls : Nat}

/-- The counter is the number of the calls that are active. -/
theorem depth_eq (h : Active config outer calls inner) :
    inner.state.depth = outer.state.depth + calls := by
  induction h with
  | self => rfl
  | step _ _ _ hbegins ih =>
      have hstep := hbegins.depth_eq fun place expr => keeps_eval config _ _ expr
      exact hstep.trans ((congrArg (· + _) ih).trans (Nat.add_assoc _ _ _))

/-- The counter does not exceed the limit, unless it did at the start. -/
theorem depth_le (h : Active config outer calls inner) {limit : Int}
    (hlimit : config.maxDepth = some limit) :
    (inner.state.depth : Int) ≤ max limit outer.state.depth := by
  induction h with
  | self => exact le_max_right _ _
  | @step _ _ _ _ _ state now place _ _ _ hbegins ih =>
      by_cases hplace : place = .body
      · subst hplace
        -- the call has passed the check of the limit
        exact (hbegins.depth_le hlimit).trans (le_max_left _ _)
      · have hcalls : place.calls = 0 := by
          cases place with
          | body => exact absurd rfl hplace
          | _ => rfl
        have hsame := hbegins.depth_eq fun place expr => keeps_eval config _ _ expr
        rw [hcalls] at hsame
        change (now.depth : Int) ≤ _
        rw [hsame]
        exact ih

end Active

end PrefixLogic.Evaluation
