import PrefixLogic.Proofs.Evaluation.Nesting
import PrefixLogic.Proofs.Reading.Viability

/-!
# Runs with more room

A run may stop because there is no room: its source is nested too deeply to be read or evaluated, or
the value that it has found is too deep to be written. No other failure has to do with the room. So
a run that does not stop for that does the same in more room (`Session.run_of_isWithin`).
-/

namespace PrefixLogic

/-- The failures of a run that has too little room. -/
def Failure.LacksRoom (failure : Failure) : Prop :=
  failure = .parse .tooDeep ∨ failure = .evaluate .nesting ∨ ∃ value, failure = .write value

/-- The same configuration in another room. -/
def Config.inRoom (config : Config) (room : Room) : Config := { config with room }

/-- More expressions may be read inside one another in more room. -/
theorem Room.IsWithin.fits {room room' : Room} (h : room.IsWithin room')
    {stack : List Reader.Frame} (hfits : Reader.fits room.readings stack = true) :
    Reader.fits room'.readings stack = true := by
  rcases h.cases with rfl | ⟨left, most, rfl, rfl, hle⟩
  · rfl
  · simp only [Reader.fits, readings, Option.map_some, Option.all_some, decide_eq_true_eq]
      at hfits ⊢
    omega

/-- An evaluation that is not stopped for lack of room does the same in more room. -/
theorem Expr.evaluate_of_isWithin {config : Config} {room : Room}
    (hwithin : config.room.IsWithin room) {expr : Expr} {env : Env}
    (h : (expr.evaluate config env).result ≠ .error .nesting) :
    expr.evaluate (config.inRoom room) env = expr.evaluate config env := by
  rw [Evaluation.evaluate_eq] at h
  have hends : Evaluation.ending (Evaluation.eval (config.inRoom room) config.nesting room expr)
      (.start env) = _ := Evaluation.eval_of_le h (Nat.le_refl _) hwithin rfl rfl
  rw [Evaluation.evaluate_eq, Evaluation.evaluate_eq]
  exact congrArg (fun ends => Outcome.mk ends.1 ends.2.env ends.2.events.toList) hends

namespace Session

theorem read_of_isWithin {room room' : Room} (hwithin : room.IsWithin room') {source : String}
    (h : read room source ≠ .error (.parse .tooDeep)) : read room' source = read room source := by
  rw [read] at h
  rw [read, read]
  cases htokens : Token.tokenize source with
  | error error => rfl
  | ok tokens =>
      rw [htokens] at h
      dsimp only at h ⊢
      rw [Expr.ofTokens_wider fun _ => hwithin.fits]
      intro hdeep
      rw [hdeep] at h
      exact h rfl

theorem runQuietly_of_isWithin {config : Config} {room : Room}
    (hwithin : config.room.IsWithin room) {source : String} {env : Env}
    (h : ∀ failure, (runQuietly config source env).result = .error failure → ¬failure.LacksRoom) :
    runQuietly (config.inRoom room) source env = runQuietly config source env := by
  have hread : read (config.inRoom room).room source = read config.room source := by
    apply read_of_isWithin hwithin
    intro hdeep
    refine h (.parse .tooDeep) ?_ (.inl rfl)
    rw [runQuietly, hdeep]
  rw [runQuietly, runQuietly, hread]
  cases hexpr : read config.room source with
  | error failure => rfl
  | ok expr =>
      dsimp only
      rw [Expr.evaluate_of_isWithin hwithin]
      intro hnesting
      refine h (.evaluate .nesting) ?_ (.inr (.inl rfl))
      rw [runQuietly, hexpr]
      exact congrArg (Except.mapError Failure.evaluate) hnesting

/-- A run that is not stopped for lack of room does the same in more room. -/
theorem run_of_isWithin {config : Config} {room : Room} (hwithin : config.room.IsWithin room)
    {source : String} {env : Env}
    (h : ∀ failure, (run config source env).result = .error failure → ¬failure.LacksRoom) :
    run (config.inRoom room) source env = run config source env := by
  have hquiet : runQuietly (config.inRoom room) source env = runQuietly config source env :=
    runQuietly_of_isWithin hwithin fun failure hfails =>
      h failure (comesOut_eq_error.2 (.inl hfails))
  have hresult : comesOut (config.inRoom room).room (runQuietly config source env).result =
      comesOut config.room (runQuietly config source env).result := by
    cases hfound : (runQuietly config source env).result with
    | error failure => rfl
    | ok value =>
        cases hholds : config.room.holds value.cells with
        | true =>
            rw [comesOut_eq_ok.2 ⟨rfl, hholds⟩]
            exact comesOut_eq_ok.2 ⟨rfl, hwithin _ hholds⟩
        | false =>
            -- the value would be lost for lack of room
            refine absurd (.inr (.inr ⟨value, rfl⟩)) (h (.write value) ?_)
            exact comesOut_eq_error.2 (.inr ⟨value, hfound, hholds, rfl⟩)
  rw [run, run, hquiet, hresult]
  rfl

end Session

end PrefixLogic
