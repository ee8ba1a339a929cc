import PrefixLogic.Token.Lexeme
import PrefixLogic.Expr.Reader
import PrefixLogic.Evaluation

/-!
# Running a source

A session runs one source after the other. Each run is recorded by the source that went in and by
the value or the failure that came out, with the events of its evaluation between them. Between
runs, only the environment is kept: a run that fails keeps the bindings made before it failed.

A value that a run has found is written before it is given back. If there is no room for that, then
the value is lost, but what it was bound to is not.
-/

namespace PrefixLogic.Session

/-- The expression at the front of a source. -/
def read (room : Room) (source : String) : Except Failure Expr :=
  match Token.tokenize source with
  | .error error => .error (.tokenize error)
  | .ok tokens => (Expr.ofTokens tokens room.readings).mapError .parse

/-- Reads and evaluates a source, without the record of what goes in and out. -/
def runQuietly (config : Config) (source : String) (env : Env) : Outcome Failure :=
  match read config.room source with
  | .error failure => ⟨.error failure, env, []⟩
  | .ok expr =>
    let outcome := expr.evaluate config env
    ⟨outcome.result.mapError .evaluate, outcome.env, outcome.trace⟩

/-- What comes out of a run that ends so. A value is written, whether or not the run is traced, and
a value for which there is no room does not come out. A run has one cell more than its evaluation,
and quoting the value takes it. -/
def comesOut (room : Room) : Except Failure Value → Except Failure Value
  | .ok value => if room.holds value.cells then .ok value else .error (.write value)
  | .error failure => .error failure

theorem comesOut_eq_ok {room : Room} {result : Except Failure Value} {value : Value} :
    comesOut room result = .ok value ↔ result = .ok value ∧ room.holds value.cells = true := by
  cases result with
  | error failure => simp [comesOut]
  | ok found =>
      rw [comesOut]
      by_cases h : room.holds found.cells = true
      · simp only [h, if_true, Except.ok.injEq]
        exact ⟨fun heq => ⟨heq, heq ▸ h⟩, And.left⟩
      · simp only [h]
        exact ⟨nofun, fun hfound => absurd (Except.ok.inj hfound.1 ▸ hfound.2) h⟩

/-- A failure comes out as it is, and a value for which there is no room comes out as one. -/
theorem comesOut_eq_error {room : Room} {result : Except Failure Value} {failure : Failure} :
    comesOut room result = .error failure ↔ result = .error failure ∨
      ∃ value, result = .ok value ∧ room.holds value.cells = false ∧ failure = .write value := by
  cases result with
  | error found => simp [comesOut]
  | ok found =>
      rw [comesOut]
      cases h : room.holds found.cells with
      | true => simp [h]
      | false =>
          simp only [Bool.false_eq_true, if_false, Except.error.injEq, reduceCtorEq, false_or]
          constructor
          · rintro rfl
            exact ⟨found, rfl, h, rfl⟩
          · rintro ⟨value, heq, -, rfl⟩
            rw [Except.ok.inj heq]

/-- What is recorded at the end of a run: nothing of a fault. -/
def lastEvent? : Except Failure Value → Option Event
  | .ok value => some (.result value)
  | .error failure => if failure.isTold then some (.failed failure) else none

/-- Runs a source in an environment. -/
def run (config : Config) (source : String) (env : Env) : Outcome Failure :=
  let outcome := runQuietly config source env
  let result := comesOut config.room outcome.result
  let first := Trace.ofEvent config.verbosity (.input source)
  let last := (lastEvent? result).elim [] (Trace.ofEvent config.verbosity)
  ⟨result, outcome.env, first ++ outcome.trace ++ last⟩

end PrefixLogic.Session
