import PrefixLogic.Proofs.Evaluation.ActiveCalls
import PrefixLogic.Proofs.Session.Verbosity

/-!
# What is kept between inputs

An interpreter keeps its environments and a counter of active calls (`Session.Interpreter`). The
counter is set back before each evaluation. That would not be needed: every evaluation leaves the
counter as it found it, however it ends, so after any inputs the interpreter is a fresh one with the
environments as they are then (`Session.Interpreter.after_eq_fresh`).

So an input is taken as runs and evaluations in shared environments are, in which there is no such
counter (`Session.Interpreter.take_source`, `Session.Interpreter.take_tree`).
-/

namespace PrefixLogic

open Evaluation (State Activation Active Inside eval evaluate_eq depth_ending_eval)

/-- Evaluates an expression when so many calls are counted as active, and gives back how many are
counted afterwards. -/
def Expr.evaluateFrom (config : Config) (expr : Expr) (count : Nat) (env : Env) :
    Outcome EvalError × Nat :=
  let ends := Evaluation.ending (eval config config.nesting config.room expr)
    { State.start env with depth := count }
  (⟨ends.1, ends.2.env, ends.2.events.toList⟩, ends.2.depth)

theorem Expr.evaluateFrom_zero (config : Config) (expr : Expr) (env : Env) :
    (expr.evaluateFrom config 0 env).1 = expr.evaluate config env :=
  (evaluate_eq config expr env).symm

theorem Expr.evaluateFrom_snd (config : Config) (expr : Expr) (count : Nat) (env : Env) :
    (expr.evaluateFrom config count env).2 = count :=
  depth_ending_eval config config.nesting config.room expr _

namespace Session

/-- What is given to an interpreter: a source, or an expression that was made by hand. -/
inductive Input where
  | source (text : String)
  | tree (expr : Expr)

namespace Input

/-- The expression that is evaluated. -/
def read (room : Room) : Input → Except Failure Expr
  | source text => Session.read room text
  | tree expr => .ok expr

/-- What comes out. The value of a tree is not written. -/
def comesOut (room : Room) : Input → Except Failure Value → Except Failure Value
  | source _, result => Session.comesOut room result
  | tree _, result => result

/-- Adds what goes in and out to the record of an evaluation, if a source goes in. -/
def recorded (config : Config) (input : Input) (outcome : Outcome Failure) : Outcome Failure :=
  let result := input.comesOut config.room outcome.result
  match input with
  | source text =>
    ⟨result, outcome.env, Trace.ofEvent config.verbosity (.input text) ++ outcome.trace ++
      Session.ending config.verbosity result⟩
  | tree _ => ⟨result, outcome.env, outcome.trace⟩

theorem recorded_eq (config : Config) (input : Input) (outcome : Outcome Failure) :
    (input.recorded config outcome).result = input.comesOut config.room outcome.result ∧
      (input.recorded config outcome).env = outcome.env := by
  cases input with
  | source text => exact ⟨rfl, rfl⟩
  | tree expr => exact ⟨rfl, rfl⟩

/-- What comes out of a run that is stopped for lack of room. -/
theorem comesOut_nesting (room : Room) (input : Input) :
    input.comesOut room (.error (.evaluate .nesting)) = .error (.evaluate .nesting) := by
  cases input <;> rfl

end Input

/-- What an interpreter keeps: the environments in which it evaluates, and the number of calls that
it counts as active. -/
structure Interpreter where
  store : Store
  depth : Nat

namespace Interpreter

/-- An interpreter to which nothing has been given. -/
def fresh (store : Store) : Interpreter := ⟨store, 0⟩

/-- Takes an input in one of the environments, with so many calls counted as active at first. -/
def takeFrom (config : Config) (count : Nat) (interpreter : Interpreter) (handle : Nat)
    (input : Input) : Outcome Failure × Interpreter :=
  let env := interpreter.store.env handle
  match input.read config.room with
  | .error failure => (input.recorded config ⟨.error failure, env, []⟩, interpreter)
  | .ok expr =>
    let ends := expr.evaluateFrom config count env
    (input.recorded config ⟨ends.1.result.mapError .evaluate, ends.1.env, ends.1.trace⟩,
      ⟨interpreter.store.setEnv handle ends.1.env, ends.2⟩)

/-- Takes an input. The counter is set back before an expression is evaluated. -/
def take (config : Config) (interpreter : Interpreter) (handle : Nat) (input : Input) :
    Outcome Failure × Interpreter :=
  interpreter.takeFrom config 0 handle input

/-- Takes an input without setting the counter back. -/
def resume (config : Config) (interpreter : Interpreter) (handle : Nat) (input : Input) :
    Outcome Failure × Interpreter :=
  interpreter.takeFrom config interpreter.depth handle input

/-- The interpreter after inputs, each in an environment of its own. -/
def after (config : Config) (interpreter : Interpreter) : List (Nat × Input) → Interpreter
  | [] => interpreter
  | (handle, input) :: history => after config (interpreter.take config handle input).2 history

variable (config : Config) (interpreter : Interpreter) (handle : Nat)

/-- However an input ends, the counter is as it was. -/
theorem depth_takeFrom (input : Input) :
    (interpreter.takeFrom config interpreter.depth handle input).2.depth = interpreter.depth := by
  rw [takeFrom]
  cases input.read config.room with
  | error failure => rfl
  | ok expr => exact expr.evaluateFrom_snd config _ _

/-- A source is run in the environment, and the counter has no part in it. -/
theorem take_source (text : String) :
    let taken := interpreter.take config handle (.source text)
    (taken.1, taken.2.store) = interpreter.store.run config text handle := by
  rw [take, takeFrom, Input.read, Store.run, Store.runIn, run, runQuietly]
  cases read config.room text with
  | error failure =>
      -- a run puts the environment back even if nothing is evaluated
      dsimp only
      rw [Store.setEnv_env]
      rfl
  | ok expr =>
      dsimp only
      rw [expr.evaluateFrom_zero]
      rfl

theorem take_tree (expr : Expr) :
    let taken := interpreter.take config handle (.tree expr)
    let evaluated := interpreter.store.evaluate config expr handle
    taken.1 = ⟨evaluated.1.result.mapError .evaluate, evaluated.1.env, evaluated.1.trace⟩ ∧
      taken.2.store = evaluated.2 := by
  rw [take, takeFrom, Input.read, Store.evaluate, Store.runIn]
  dsimp only
  rw [expr.evaluateFrom_zero]
  exact ⟨rfl, rfl⟩

/-- Two inputs at different verbosities differ in the trace only, if the one of which more is
recorded is not stopped for lack of room. -/
theorem take_of_covers (input : Input) {full level : Int} (hcovers : Covers full level)
    (hroom : config.room = none ∨
      (interpreter.take (config.withVerbosity full) handle input).1.result ≠
        .error (.evaluate .nesting)) :
    let taken := interpreter.take (config.withVerbosity full) handle input
    let taken' := interpreter.take (config.withVerbosity level) handle input
    taken.1.result = taken'.1.result ∧ taken.1.env = taken'.1.env ∧ taken.2 = taken'.2 := by
  rw [take, takeFrom] at hroom
  rw [take, take, takeFrom, takeFrom]
  dsimp only [Config.withVerbosity] at hroom ⊢
  cases hread : input.read config.room with
  | error failure => simp only [Input.recorded_eq, and_self]
  | ok expr =>
      rw [hread] at hroom
      simp only [Input.recorded_eq, expr.evaluateFrom_zero] at hroom
      have hevaluate :
          expr.evaluate (config.withVerbosity level) (interpreter.store.env handle) =
            (expr.evaluate (config.withVerbosity full) (interpreter.store.env handle)).upTo
              level := by
        refine expr.evaluate_withVerbosity config _ hcovers (hroom.imp_right ?_)
        intro hne hnesting
        change (expr.evaluate { config with verbosity := full } _).result = _ at hnesting
        rw [hnesting] at hne
        exact hne (Input.comesOut_nesting _ _)
      change expr.evaluate { config with verbosity := level } _ =
        (expr.evaluate { config with verbosity := full } _).upTo level at hevaluate
      simp only [Input.recorded_eq, expr.evaluateFrom_zero, expr.evaluateFrom_snd, hevaluate,
        Outcome.upTo, and_self]

/-- Nothing but the trace depends on the verbosity, as long as there is room to record. -/
theorem take_withVerbosity (input : Input) (level level' : Int) :
    let taken := interpreter.take (config.withVerbosity level) handle input
    let taken' := interpreter.take (config.withVerbosity level') handle input
    (config.room = none ∨ taken.1.result ≠ .error (.evaluate .nesting) ∧
        taken'.1.result ≠ .error (.evaluate .nesting)) →
      taken.1.result = taken'.1.result ∧ taken.1.env = taken'.1.env ∧ taken.2 = taken'.2 := by
  intro taken taken' hroom
  rcases le_total level level' with hle | hle
  · obtain ⟨hresult, henv, hkept⟩ := interpreter.take_of_covers config handle input
      (covers_of_le hle) (hroom.imp_right And.right)
    exact ⟨hresult.symm, henv.symm, hkept.symm⟩
  · exact interpreter.take_of_covers config handle input (covers_of_le hle)
      (hroom.imp_right And.left)

/-- After any inputs, an interpreter is a fresh one with the environments that it has then. -/
theorem after_eq_fresh (store : Store) (history : List (Nat × Input)) :
    after config (fresh store) history = fresh (after config (fresh store) history).store := by
  -- for all environments, since each input may change them
  induction history generalizing store with
  | nil => rfl
  | cons first history ih =>
      obtain ⟨handle, input⟩ := first
      have htaken : ((fresh store).take config handle input).2 =
          fresh ((fresh store).take config handle input).2.store := by
        have hdepth := depth_takeFrom config (fresh store) handle input
        exact congrArg (Interpreter.mk _) hdepth
      rw [after, htaken]
      exact ih _

/-- After any inputs, however they ended, an interpreter takes a further one as a fresh one takes it
that is given the environments: whether the counter is set back or not, and but for the trace at
every verbosity, as long as there is room to record. It runs a source and evaluates a tree in these
environments and does nothing else.
Every evaluation leaves the counter as it found it, however it ends. While an input is evaluated,
the counter is the number of the calls that are active, and does not exceed the limit. -/
theorem take_after (config : Config) (store : Store) (history : List (Nat × Input)) :
    let kept := after config (fresh store) history
    (∀ handle input,
      let taken := kept.take config handle input
      taken = (fresh kept.store).take config handle input ∧
        taken = kept.resume config handle input ∧
        ∀ level,
          let taken' := (fresh kept.store).take (config.withVerbosity level) handle input
          (config.room = none ∨ taken.1.result ≠ .error (.evaluate .nesting) ∧
              taken'.1.result ≠ .error (.evaluate .nesting)) →
            taken.1.result = taken'.1.result ∧ taken.1.env = taken'.1.env ∧
              taken.2 = taken'.2) ∧
    (∀ handle text,
      let taken := kept.take config handle (.source text)
      (taken.1, taken.2.store) = kept.store.run config text handle) ∧
    (∀ handle expr,
      let taken := kept.take config handle (.tree expr)
      let evaluated := kept.store.evaluate config expr handle
      taken.1 = ⟨evaluated.1.result.mapError .evaluate, evaluated.1.env, evaluated.1.trace⟩ ∧
        taken.2.store = evaluated.2) ∧
    (∀ nesting room expr state,
      (Evaluation.ending (eval config nesting room expr) state).2.depth = state.depth) ∧
    ∀ expr env inner,
      let outer := Activation.start config expr env
      (Inside config outer inner ↔ ∃ calls, Active config outer calls inner) ∧
        ∀ calls, Active config outer calls inner →
          inner.state.depth = calls ∧ (inner.ends config).2.depth = calls ∧
            ∀ limit, config.maxDepth = some limit → (calls : Int) ≤ max limit 0 := by
  intro kept
  have hkept : kept = fresh kept.store := after_eq_fresh config store history
  refine ⟨?_, kept.take_source config, kept.take_tree config, depth_ending_eval config, ?_⟩
  · intro handle input taken
    refine ⟨congrArg (take config · handle input) hkept, ?_, ?_⟩
    · -- nothing is counted as active, so there is nothing to set back
      have hdepth : kept.depth = 0 := congrArg depth hkept
      change kept.takeFrom config 0 handle input = kept.takeFrom config kept.depth handle input
      rw [hdepth]
    · intro level taken'
      have hfresh : taken' = kept.take (config.withVerbosity level) handle input :=
        congrArg (take (config.withVerbosity level) · handle input) hkept.symm
      rw [hfresh]
      exact kept.take_withVerbosity config handle input config.verbosity level
  · intro expr env inner outer
    refine ⟨Evaluation.inside_iff_active, ?_⟩
    intro calls hactive
    have hcount : inner.state.depth = calls :=
      hactive.depth_eq.trans (Nat.zero_add calls)
    refine ⟨hcount, ?_, ?_⟩
    · rw [← hcount]
      exact depth_ending_eval config _ _ _ _
    · intro limit hlimit
      rw [← hcount]
      exact hactive.depth_le hlimit

/-- A call that never returns is stopped with two calls active, a tree without a rule is evaluated
after a definition, and a source is not read. The next inputs are not affected by any of that. -/
theorem take_after_failing :
    let config : Config := { maxDepth := some 2 }
    let history : List (Nat × Input) :=
      [(0, .source "(def f (lambda () (f)))"), (1, .source "(f)"),
        (1, .tree (.call (.op .and) [.define "x" (.bool true), .hole])), (1, .source "(f")]
    let kept := after config (fresh [⟨.empty, some 0⟩, ⟨.empty, none⟩]) history
    (kept.take config 1 (.source "(f)")).1.result = .error (.evaluate (.callDepth 2)) ∧
      (kept.take config 1 (.source "(| x)")).1.result = .ok (.bool true) ∧
      kept.take config 1 (.source "(| x)") =
        (fresh kept.store).take config 1 (.source "(| x)") ∧
      ∃ inner, Active config (.start config (.call (.ident "f") []) (kept.store.env 1)) 2 inner ∧
        inner.state.depth = 2 ∧ (inner.ends config).2.depth = 2 := by
  intro config history kept
  obtain ⟨hinputs, -, -, -, hactive⟩ :=
    take_after config [⟨.empty, some 0⟩, ⟨.empty, none⟩] history
  have henv : kept.store.env 1 = ⟨.ofList [("x", .bool true)],
      [.ofList [("f", .lambda [] (.call (.ident "f") []))]]⟩ := by decide +kernel
  have hcalls : ∃ inner,
      Active config (.start config (.call (.ident "f") []) (kept.store.env 1)) 2 inner := by
    rw [henv]
    -- nothing is recorded, so there is always room for it
    have hfits := @Evaluation.fits_of_nonpos config (Int.le_refl 0)
    exact ⟨_, .step (.step .self rfl (hfits _ _) (.body rfl rfl rfl rfl (hfits _ _))) rfl
      (hfits _ _) (.body rfl rfl rfl rfl (hfits _ _))⟩
  obtain ⟨inner, hinner⟩ := hcalls
  obtain ⟨hbegins, hends, -⟩ := (hactive _ _ inner).2 2 hinner
  exact ⟨by decide +kernel, by decide +kernel, (hinputs 1 _).1, inner, hinner, hbegins, hends⟩

end Interpreter

end Session

end PrefixLogic
