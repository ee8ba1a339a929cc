import Mathlib.Order.Defs.Unbundled
import PrefixLogic.Evaluation

/-!
# Relations between runs

Two properties of runs that pass from the parts of a run to the whole, so that a property of
evaluation needs one case for each rule and one for each thing that changes the state.

* `Keeps`: from every state, the run ends in a state that is related to it.
* `Simulates`: from related states, two runs end alike, with the same value or the same error, in
  related states. The first run may also stop with an error of a kind that is left out.
-/

namespace PrefixLogic.Evaluation

variable {ε σ τ α β : Type}

/-- How a run ends, and in which state. -/
def ending (run : EStateM ε σ α) (state : σ) : Except ε α × σ :=
  match run state with
  | .ok value state => (.ok value, state)
  | .error error state => (.error error, state)

@[simp] theorem ending_pure (value : α) (state : σ) :
    ending (pure value : EStateM ε σ α) state = (.ok value, state) := rfl

@[simp] theorem ending_throw (error : ε) (state : σ) :
    ending (throw error : EStateM ε σ α) state = (.error error, state) := rfl

/-- After a value the next run follows, after an error none does. -/
theorem ending_bind (run : EStateM ε σ α) (next : α → EStateM ε σ β) (state : σ) :
    ending (run >>= next) state =
      match ending run state with
      | (.ok value, after) => ending (next value) after
      | (.error error, after) => (.error error, after) := by
  change ending (EStateM.bind run next) state = _
  cases h : run state with
  | ok value after => simp only [ending, EStateM.bind, h]
  | error error after => simp only [ending, EStateM.bind, h]

/-! ## How the parts of an evaluation end -/

/-- The state after an event. -/
def State.recorded (config : Config) (event : Event) (state : State) : State :=
  { state with
    events := if event.isRecorded config.verbosity then state.events.push event
      else state.events }

theorem events_recorded (config : Config) (event : Event) (state : State) :
    (state.recorded config event).events.toList =
      state.events.toList ++ Trace.ofEvent config.verbosity event := by
  by_cases h : event.isRecorded config.verbosity = true <;> simp [State.recorded, Trace.ofEvent, h]

theorem State.recorded_eq {config config' : Config} (h : config'.verbosity = config.verbosity)
    (event : Event) (state : State) :
    state.recorded config' event = state.recorded config event := by
  rw [recorded, recorded, h]

/-- There is room to write an event, or it is not recorded. -/
def Fits (config : Config) (room : Room) (event : Event) : Prop :=
  event.isRecorded config.verbosity = true → room.holds event.cells = true

instance (config : Config) (room : Room) (event : Event) : Decidable (Fits config room event) :=
  inferInstanceAs (Decidable (_ → _))

@[simp] theorem fits_none (config : Config) (event : Event) : Fits config none event := fun _ => rfl

/-- Nothing is recorded without a positive verbosity. -/
theorem fits_of_nonpos {config : Config} (h : config.verbosity ≤ 0) (room : Room) (event : Event) :
    Fits config room event := by
  intro hrecorded
  have hpos := event.level_pos
  simp only [Event.isRecorded, decide_eq_true_eq] at hrecorded
  omega

theorem ending_record (config : Config) (room : Room) (event : Event) (state : State) :
    ending (record config room event) state =
      if Fits config room event then (.ok (), state.recorded config event)
      else (.error .nesting, state) := by
  rw [record]
  cases hrecorded : event.isRecorded config.verbosity with
  | false => simp [Fits, State.recorded, hrecorded]
  | true =>
      cases hholds : room.holds event.cells with
      | false => simp [Fits, hrecorded, hholds]
      | true =>
          simp only [Fits, State.recorded, hrecorded, hholds, if_true, forall_const]
          rfl

theorem record_eq {config config' : Config} (h : config'.verbosity = config.verbosity) (room : Room)
    (event : Event) : record config' room event = record config room event := by
  rw [record, record, h]

theorem ending_lookup (name : String) (state : State) :
    ending (lookup name) state =
      (match state.env.get? name with
        | some value => .ok value
        | none => .error (.notDefined name), state) := by
  change ending (match state.env.get? name with
    | some value => pure value
    | none => throw (EvalError.notDefined name) : Run Value) state = _
  cases state.env.get? name <;> rfl

theorem ending_define (name : String) (value : Value) (state : State) :
    ending (define name value) state =
      (.ok (), { state with env := state.env.insert name value }) := rfl

theorem ending_checkDepth (config : Config) (state : State) :
    ending (checkDepth config) state =
      (match config.maxDepth with
        | none => .ok ()
        | some limit => if (state.depth : Int) < limit then .ok () else .error (.callDepth limit),
        state) := by
  rw [checkDepth]
  cases config.maxDepth with
  | none => rfl
  | some limit =>
      change ending (if (state.depth : Int) < limit then pure ()
        else throw (EvalError.callDepth limit) : Run Unit) state = _
      by_cases h : (state.depth : Int) < limit <;> simp [h]

theorem ending_checkOperandCount (op : Operator) (operands : List Expr) (state : State) :
    ending (checkOperandCount op operands) state =
      (if op = .not ∧ operands.length ≠ 1 then .error (.negationCount operands.length) else .ok (),
        state) := by
  cases op with
  | not => by_cases h : operands.length = 1 <;> simp [checkOperandCount, h]
  | and => rfl
  | or => rfl

theorem ending_checkArgumentCount (params : List String) (operands : List Expr) (state : State) :
    ending (checkArgumentCount params operands) state =
      (if operands.length = params.length then .ok ()
        else .error (.argumentCount params.length operands.length), state) := by
  by_cases h : operands.length = params.length <;> simp [checkArgumentCount, h]

/-- A body ends as it does in a scope of its own, and the scope is left. -/
theorem ending_within (frame : Scope) (body : Run Value) (state : State) :
    ending (within frame body) state =
      ((ending body (state.enter frame)).1, (ending body (state.enter frame)).2.leave) := by
  unfold ending within
  cases body (state.enter frame) <;> rfl

/-! ## One run -/

/-- A run ends in a state that is related to the one in which it begins. -/
def Keeps (rel : σ → σ → Prop) (run : EStateM ε σ α) : Prop :=
  ∀ state, rel state (ending run state).2

namespace Keeps

variable {rel : σ → σ → Prop} {run : EStateM ε σ α} {next : α → EStateM ε σ β}

theorem pure [Std.Refl rel] (value : α) : Keeps rel (Pure.pure value : EStateM ε σ α) := by
  intro state
  exact Std.Refl.refl state

theorem throw [Std.Refl rel] (error : ε) :
    Keeps rel (MonadExcept.throw error : EStateM ε σ α) := by
  intro state
  exact Std.Refl.refl state

/-- A run that only looks at its state keeps it. -/
theorem of_ending [Std.Refl rel] {result : σ → Except ε α}
    (h : ∀ state, ending run state = (result state, state)) : Keeps rel run := by
  intro state
  rw [h]
  exact Std.Refl.refl state

theorem bind [IsTrans σ rel] (hrun : Keeps rel run) (hnext : ∀ value, Keeps rel (next value)) :
    Keeps rel (run >>= next) := by
  intro state
  have hfirst := hrun state
  rw [ending_bind]
  rcases hend : ending run state with ⟨result, after⟩
  rw [hend] at hfirst
  cases result with
  | ok value => exact IsTrans.trans _ _ _ hfirst (hnext value after)
  | error error => exact hfirst

theorem mapM [Std.Refl rel] [IsTrans σ rel] {f : β → EStateM ε σ α} :
    ∀ list : List β, (∀ item ∈ list, Keeps rel (f item)) → Keeps rel (list.mapM f)
  | [], _ => by
      rw [List.mapM_nil]
      exact pure _
  | item :: list, h => by
      rw [List.forall_mem_cons] at h
      rw [List.mapM_cons]
      apply bind h.1
      intro value
      apply bind (mapM list h.2)
      intro values
      exact pure _

end Keeps

/-! ## Two runs -/

/-- Two ends that are alike: the same value or error in related states, or a stop of the first run
with an error of a kind that is left out. -/
inductive Alike (stops : ε → Prop) (rel : σ → τ → Prop) :
    Except ε α × σ → Except ε α × τ → Prop
  | same {state : σ} {other : τ} (result : Except ε α) : rel state other →
      Alike stops rel (result, state) (result, other)
  | stop {error : ε} {state : σ} (ends : Except ε α × τ) : stops error →
      Alike stops rel (.error error, state) ends

theorem Alike.of_never {stops : ε → Prop} {rel : σ → τ → Prop} {ends : Except ε α × σ}
    {ends' : Except ε α × τ} (h : Alike stops rel ends ends') (hnever : ∀ error, ¬stops error) :
    ends'.1 = ends.1 ∧ rel ends.2 ends'.2 := by
  cases h with
  | same result hrel => exact ⟨rfl, hrel⟩
  | @stop error _ _ hstop => exact absurd hstop (hnever error)

/-- From related states, two runs end alike. -/
def Simulates (stops : ε → Prop) (rel : σ → τ → Prop) (run : EStateM ε σ α)
    (other : EStateM ε τ α) : Prop :=
  ∀ state state', rel state state' → Alike stops rel (ending run state) (ending other state')

namespace Simulates

variable {stops : ε → Prop} {rel : σ → τ → Prop} {run : EStateM ε σ α} {other : EStateM ε τ α}
  {next : α → EStateM ε σ β} {next' : α → EStateM ε τ β}

theorem pure (value : α) :
    Simulates stops rel (Pure.pure value : EStateM ε σ α) (Pure.pure value) := by
  intro state state' h
  exact .same _ h

theorem throw (error : ε) :
    Simulates stops rel (MonadExcept.throw error : EStateM ε σ α) (MonadExcept.throw error) := by
  intro state state' h
  exact .same _ h

theorem stop {error : ε} (h : stops error) :
    Simulates stops rel (MonadExcept.throw error : EStateM ε σ α) other := by
  intro state state' _
  exact .stop _ h

theorem bind (hrun : Simulates stops rel run other)
    (hnext : ∀ value, Simulates stops rel (next value) (next' value)) :
    Simulates stops rel (run >>= next) (other >>= next') := by
  intro state state' h
  have hfirst := hrun state state' h
  rw [ending_bind, ending_bind]
  generalize ending run state = ends, ending other state' = ends' at hfirst ⊢
  cases hfirst with
  | same result hrel =>
      cases result with
      | ok value => exact hnext value _ _ hrel
      | error error => exact .same _ hrel
  | stop _ hstop =>
      -- the other run goes on, but no longer matters
      exact .stop _ hstop

theorem mapM {f : β → EStateM ε σ α} {f' : β → EStateM ε τ α} :
    ∀ list : List β, (∀ item ∈ list, Simulates stops rel (f item) (f' item)) →
      Simulates stops rel (list.mapM f) (list.mapM f')
  | [], _ => by
      rw [List.mapM_nil, List.mapM_nil]
      exact pure _
  | item :: list, h => by
      rw [List.forall_mem_cons] at h
      rw [List.mapM_cons, List.mapM_cons]
      apply bind h.1
      intro value
      apply bind (mapM list h.2)
      intro values
      exact pure _

/-- A part that only the first run has may be passed over, if it succeeds and keeps its states
related to the states of the other run, or stops. -/
theorem pass {first : EStateM ε σ β} {rest : β → EStateM ε σ α} (value : β)
    (hfirst : ∀ state state', rel state state' →
      (∃ after, ending first state = (.ok value, after) ∧ rel after state') ∨
        ∃ error after, ending first state = (.error error, after) ∧ stops error)
    (hrest : Simulates stops rel (rest value) other) :
    Simulates stops rel (first >>= rest) other := by
  intro state state' h
  rw [ending_bind]
  rcases hfirst state state' h with ⟨after, hend, hrel⟩ | ⟨error, after, hend, hstop⟩
  · rw [hend]
    exact hrest after state' hrel
  · rw [hend]
    exact .stop _ hstop

end Simulates

end PrefixLogic.Evaluation
