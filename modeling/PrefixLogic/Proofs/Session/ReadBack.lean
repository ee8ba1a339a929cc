import PrefixLogic.Proofs.Evaluation.Correspondence
import PrefixLogic.Proofs.Evaluation.Nesting
import PrefixLogic.Proofs.Reading.RoundTrip
import PrefixLogic.Proofs.Session.Source

/-!
# The values of a session read back

A session that begins with values from sources has no others: a tree that is read from a source is
well-formed and no higher than the reader admits (`Session.readable_of_read`), and evaluation goes
on with parts of the trees that it has. The text of such a value is read as the tree of the value,
and where there is room to write the value, the text is a source that evaluates to it in every
environment and binds nothing (`Value.Readable.readsBack`).

So whatever a session is given to run, each value that it returns reads back, and so does each value
that it binds and that there is room to write. It never meets an expression without a rule, but a
value that it finds may be too deep to be written, and then it is lost (`Session.values_read_back`).
-/

namespace PrefixLogic

open Evaluation (Fits evaluate_eq evaluate_of_carried exists_ending_eval)

/-! ## Trees from sources -/

/-- A tree whose text reads back as the tree, if so many expressions may be read inside one
another. -/
structure Expr.Readable (limit : Option Nat) (expr : Expr) : Prop where
  wellFormed : expr.WellFormed
  admits : Reader.admits limit expr.height = true

/-- A value whose text reads back as the tree of the value. -/
def Value.Readable (limit : Option Nat) (value : Value) : Prop := value.toExpr.Readable limit

namespace Expr

theorem admits_of_le {limit : Option Nat} {height height' : Nat}
    (h : Reader.admits limit height' = true) (hle : height ≤ height') :
    Reader.admits limit height = true := by
  cases limit with
  | none => rfl
  | some most =>
      simp only [Reader.admits, Option.all_some, decide_eq_true_eq] at h ⊢
      exact hle.trans h

theorem WellFormed.part {expr : Expr} (h : expr.WellFormed) :
    ∀ part ∈ expr.parts, part.WellFormed := by
  cases h with
  | call hoperator hoperands => exact List.forall_mem_cons.2 ⟨hoperator, hoperands⟩
  | cond htest hyes hno =>
      simp only [parts, List.forall_mem_cons]
      exact ⟨htest, hyes, hno, by simp⟩
  | define hname hbody => exact List.forall_mem_singleton.2 hbody
  | bool value => exact List.forall_mem_nil _
  | op op => exact List.forall_mem_nil _
  | lambda hparams hbody => exact List.forall_mem_nil _
  | ident hname => exact List.forall_mem_nil _

/-- What evaluation finds in a readable tree is readable. -/
theorem carried_readable {limit : Option Nat} (hlimit : Reader.admits limit 1 = true) :
    Carried (Readable limit) (Value.Readable limit) where
  bool truth := ⟨.bool truth, hlimit⟩
  op op := ⟨.op op, hlimit⟩
  lambda h := h
  body := by
    rintro params body ⟨hwellFormed, hadmits⟩
    -- a body is lower than its lambda, so the reader admits it too
    cases hwellFormed with
    | lambda _ hbody => exact ⟨hbody, admits_of_le hadmits (Nat.le_succ body.height)⟩
  part := by
    rintro expr ⟨hwellFormed, hadmits⟩ part hmem
    exact ⟨hwellFormed.part part hmem, admits_of_le hadmits (height_lt_of_mem_parts hmem).le⟩

theorem ne_noRule_of_arisesFrom {limit : Option Nat} {value : Value → Prop} {calls : Option Int}
    {reason : EvalError} (h : reason.ArisesFrom (Readable limit) value calls) :
    reason ≠ .noRule := by
  rintro rfl
  obtain ⟨hhole, -⟩ := h
  cases hhole

end Expr

/-! ## Reading and writing -/

namespace Session

theorem readable_of_read {room : Room} {source : String} {expr : Expr}
    (h : read room source = .ok expr) : expr.Readable room.readings := by
  obtain ⟨tokens, htokens, hexpr⟩ := read_eq_ok_iff.1 h
  obtain ⟨count, hread⟩ := Expr.ofTokens_eq_ok_iff.1 hexpr
  obtain ⟨hderives, hcanonical⟩ := Expr.derives_of_readAt htokens hread
  obtain ⟨-, hadmits⟩ := Expr.readAt_eq_ok_iff.1 hread
  exact ⟨Expr.wellFormed_of_derives hderives hcanonical, hadmits⟩

/-- A source that is read does what its expression does, if what is found there can be written. -/
theorem run_of_read {config : Config} {source : String} {expr : Expr}
    (h : read config.room source = .ok expr) (env : Env) :
    (run config source env).result =
        comesOut config.room ((expr.evaluate config env).result.mapError .evaluate) ∧
      (run config source env).env = (expr.evaluate config env).env := by
  rw [run, runQuietly, h]
  exact ⟨rfl, rfl⟩

/-- What is not read is not evaluated, and no value is found in it. -/
theorem read_ne {room : Room} {source : String} {failure : Failure}
    (h : read room source = .error failure) :
    (∀ reason, failure ≠ .evaluate reason) ∧ ∀ value, failure ≠ .write value := by
  rw [read] at h
  cases htokens : Token.tokenize source with
  | error error =>
      rw [htokens] at h
      obtain rfl := Except.error.inj h
      refine ⟨?_, ?_⟩
      · rintro reason ⟨⟩
      · rintro value ⟨⟩
  | ok tokens =>
      rw [htokens] at h
      dsimp only at h
      cases hexpr : Expr.ofTokens tokens room.readings with
      | error error =>
          rw [hexpr] at h
          obtain rfl := Except.error.inj h
          refine ⟨?_, ?_⟩
          · rintro reason ⟨⟩
          · rintro value ⟨⟩
      | ok expr =>
          rw [hexpr] at h
          cases h

end Session

theorem Expr.Readable.ofTokens_text {limit : Option Nat} {expr : Expr} (h : expr.Readable limit) :
    ∃ tokens, Token.tokenize expr.text = .ok tokens ∧
      Expr.ofTokens tokens limit = .ok expr := by
  obtain ⟨tokens, hderives, hcanonical⟩ := h.wellFormed.exists_derives
  have hspans : Spans tokens 0 expr tokens.length := ⟨by simp, by simpa using hderives⟩
  exact ⟨tokens, tokenize_text hderives hcanonical,
    ofTokens_eq_ok_iff.2 ⟨_, readAt_eq_ok_iff.2 ⟨hspans, h.admits⟩⟩⟩

namespace Value

theorem write_eq_some_iff {room : Room} {value : Value} {text : String} :
    value.write room = some text ↔ room.holds value.cells = true ∧ value.text = text := by
  rw [write]
  split
  next h => simp [h]
  next h => simp [h]

theorem write_eq_none_iff {room : Room} {value : Value} :
    value.write room = none ↔ room.holds value.cells = false := by
  rw [write]
  cases room.holds value.cells <;> simp

/-- Where a value can be written, its tree can be recorded on the way to the value. -/
theorem fits_visited {room : Room} (hroom : room.holds 8 = true) {value : Value}
    (hcells : room.holds value.cells = true) (config : Config) :
    Fits config (room.less 1) (.visited value.toExpr) := by
  intro _
  rcases room with - | cells
  · rfl
  · simp only [Room.holds, Room.less, Option.all_some, Option.map_some, decide_eq_true_eq]
      at hroom hcells ⊢
    cases value with
    | lambda params body =>
        rw [Value.cells] at hcells
        rw [Event.cells]
        omega
    | bool value =>
        change 3 ≤ _
        omega
    | op op =>
        change 7 ≤ _
        omega

/-- Where an expression may be evaluated at all, the text of a readable value is a source in which
the value is found. -/
theorem Readable.run_text {value : Value} (config : Config)
    (h : value.Readable config.room.readings) (hnesting : 0 < config.nesting)
    (hroom : config.room ≠ some 0)
    (hfits : Fits config (config.room.less 1) (.visited value.toExpr)) (env : Env) :
    (Session.run config value.text env).result = Session.comesOut config.room (.ok value) ∧
      (Session.run config value.text env).env = env := by
  have hread : Session.read config.room value.text = .ok value.toExpr :=
    Session.read_eq_ok_iff.2 (Expr.Readable.ofTokens_text h)
  have hvalue : (value.toExpr.evaluate config env).result = .ok value ∧
      (value.toExpr.evaluate config env).env = env := by
    obtain ⟨inside, hends⟩ := exists_ending_eval config hnesting hroom hfits (.start env)
    rw [evaluate_eq, hends]
    cases value <;> exact ⟨rfl, rfl⟩
  obtain ⟨hresult, henv⟩ := Session.run_of_read hread env
  rw [hresult, hvalue.1]
  exact ⟨rfl, henv.trans hvalue.2⟩

/-- The text of a value is read as the tree of the value. If the value can be written, then its text
is a source that evaluates to the value in every environment and leaves the environment as it was,
wherever there is room for this. The last of it is for what the sign of an operator takes. -/
def ReadsBack (room : Room) (value : Value) : Prop :=
  (∃ tokens, Token.tokenize value.text = .ok tokens ∧
      Expr.ofTokens tokens room.readings = .ok value.toExpr) ∧
    ∀ text, value.write room = some text → ∀ (config : Config) (env : Env),
      config.room = room → 0 < config.nesting → room.holds 8 = true →
      (Session.run config text env).result = .ok value ∧ (Session.run config text env).env = env

theorem Readable.readsBack {room : Room} {value : Value} (h : value.Readable room.readings) :
    value.ReadsBack room := by
  have htokens := Expr.Readable.ofTokens_text h
  refine ⟨htokens, ?_⟩
  rintro text hwrite config env rfl hnesting hroom
  obtain ⟨hcells, rfl⟩ := write_eq_some_iff.1 hwrite
  have hsome : config.room ≠ some 0 := by
    intro hnone
    rw [hnone] at hroom
    cases hroom
  obtain ⟨hresult, henv⟩ :=
    h.run_text config hnesting hsome (fits_visited hroom hcells config) env
  refine ⟨?_, henv⟩
  rw [hresult]
  exact Session.comesOut_eq_ok.2 ⟨rfl, hcells⟩

end Value

/-! ## Sessions -/

/-- Values from readable code in an environment of readable values are readable, and no expression
is without a rule. -/
theorem Expr.Readable.evaluate {limit : Option Nat} {expr : Expr} (h : expr.Readable limit)
    (config : Config) {env : Env} (henv : env.Holds (Value.Readable limit)) :
    let outcome := expr.evaluate config env
    outcome.result ≠ .error .noRule ∧
      (∀ value, outcome.result = .ok value → value.Readable limit) ∧
      outcome.env.Holds (Value.Readable limit) := by
  intro outcome
  have hnesting : EvalError.nesting ≠ .noRule := nofun
  obtain ⟨herror, hvalue, hshows⟩ := evaluate_of_carried
    (carried_readable (admits_of_le h.admits expr.height_pos)) ne_noRule_of_arisesFrom hnesting h
    (henv.shows _)
  -- what is new is in the innermost scope, where all of it is visible
  obtain ⟨houter, -⟩ := Store.evaluate_env config expr env
  refine ⟨?_, hvalue, hshows.holds henv houter⟩
  intro hnoRule
  exact herror _ hnoRule rfl

namespace Session

variable {limit : Option Nat} {env : Env}

/-- One run keeps a session readable. -/
theorem runQuietly_readable (config : Config) (source : String)
    (hlimit : ∀ height, Reader.admits config.room.readings height = true →
      Reader.admits limit height = true)
    (henv : env.Holds (Value.Readable limit)) :
    let outcome := runQuietly config source env
    outcome.result ≠ .error (.evaluate .noRule) ∧
      (∀ value, outcome.result ≠ .error (.write value)) ∧
      (∀ value, outcome.result = .ok value → value.Readable limit) ∧
      outcome.env.Holds (Value.Readable limit) := by
  intro outcome
  change (runQuietly config source env).result ≠ _ ∧
    (∀ value, (runQuietly config source env).result ≠ _) ∧
    (∀ value, (runQuietly config source env).result = _ → _) ∧
      (runQuietly config source env).env.Holds _
  rw [runQuietly]
  cases hread : read config.room source with
  | error failure =>
      obtain ⟨hevaluate, hwrite⟩ := read_ne hread
      -- a source that is not read leaves the environment as it was
      refine ⟨?_, ?_, ?_, henv⟩
      · intro hnoRule
        exact hevaluate _ (Except.error.inj hnoRule)
      · intro value hlost
        exact hwrite value (Except.error.inj hlost)
      · rintro value ⟨⟩
  | ok expr =>
      obtain ⟨hwellFormed, hadmits⟩ := readable_of_read hread
      obtain ⟨hrule, hvalue, hafter⟩ :=
        Expr.Readable.evaluate ⟨hwellFormed, hlimit _ hadmits⟩ config henv
      dsimp only
      generalize (expr.evaluate config env).result = result at hrule hvalue ⊢
      cases result with
      | ok found =>
          refine ⟨?_, ?_, ?_, hafter⟩
          · rintro ⟨⟩
          · rintro value ⟨⟩
          · rintro value ⟨⟩
            exact hvalue found rfl
      | error reason =>
          refine ⟨?_, ?_, ?_, hafter⟩
          · rintro ⟨⟩
            exact hrule rfl
          · rintro value ⟨⟩
          · rintro value ⟨⟩

/-- One run keeps a session readable, and the value that it has found may be lost. -/
theorem run_readable (config : Config) (source : String)
    (hlimit : ∀ height, Reader.admits config.room.readings height = true →
      Reader.admits limit height = true)
    (henv : env.Holds (Value.Readable limit)) :
    let outcome := run config source env
    outcome.result ≠ .error (.evaluate .noRule) ∧
      (∀ value, outcome.result = .ok value →
        value.Readable limit ∧ config.room.holds value.cells = true) ∧
      (∀ value, outcome.result = .error (.write value) →
        value.Readable limit ∧ config.room.holds value.cells = false) ∧
      outcome.env.Holds (Value.Readable limit) := by
  intro outcome
  obtain ⟨hrule, hwrite, hvalue, hafter⟩ := runQuietly_readable config source hlimit henv
  refine ⟨?_, ?_, ?_, hafter⟩
  · intro hnoRule
    rcases comesOut_eq_error.1 hnoRule with hquiet | ⟨value, -, -, hne⟩
    · exact hrule hquiet
    · cases hne
  · intro value hok
    obtain ⟨hfound, hcells⟩ := comesOut_eq_ok.1 hok
    exact ⟨hvalue value hfound, hcells⟩
  · intro value hlost
    rcases comesOut_eq_error.1 hlost with hquiet | ⟨found, hfound, hcells, heq⟩
    · exact absurd hquiet (hwrite value)
    · obtain rfl := Failure.write.inj heq
      exact ⟨hvalue value hfound, hcells⟩

/-- In a session of values from sources, nothing is untold but a value that cannot be written. -/
theorem exists_write_of_untold (config : Config) (source : String)
    (henv : env.Holds (Value.Readable none)) {failure : Failure}
    (h : (run config source env).result = .error failure) (huntold : failure.isTold = false) :
    ∃ value : Value, failure = .write value ∧ value.write config.room = none := by
  obtain ⟨hrule, -, hlost, -⟩ := run_readable config source (fun _ _ => rfl) henv
  rcases Failure.isTold_eq_false_iff.1 huntold with ⟨value, rfl⟩ | rfl
  · exact ⟨value, rfl, Value.write_eq_none_iff.2 (hlost value h).2⟩
  · exact absurd h hrule

/-- The environment after some runs, each with a configuration of its own. -/
def after (env : Env) : List (Config × String) → Env
  | [] => env
  | (config, source) :: runs => after (run config source env).env runs

theorem after_readable (runs : List (Config × String))
    (hlimit : ∀ run ∈ runs, ∀ height, Reader.admits run.1.room.readings height = true →
      Reader.admits limit height = true)
    (henv : env.Holds (Value.Readable limit)) :
    (after env runs).Holds (Value.Readable limit) := by
  induction runs generalizing env with
  | nil => exact henv
  | cons first runs ih =>
      obtain ⟨hfirst, hrest⟩ := List.forall_mem_cons.1 hlimit
      obtain ⟨-, -, -, hafter⟩ := run_readable first.1 first.2 hfirst henv
      exact ih hrest hafter

end Session

/-- A value that a run of a source in this room has returned or bound, in an environment of such
values. -/
inductive Value.FromSource (room : Room) : Value → Prop
  | returned {config : Config} {source : String} {env : Env} {value : Value} :
      config.room = room →
      (∀ scope ∈ env.scopes, ∀ binding ∈ scope.bindings, FromSource room binding.2) →
      (Session.run config source env).result = .ok value → FromSource room value
  | bound {config : Config} {source : String} {env : Env} {scope : Scope}
      {binding : String × Value} :
      config.room = room →
      (∀ scope ∈ env.scopes, ∀ binding ∈ scope.bindings, FromSource room binding.2) →
      scope ∈ (Session.run config source env).env.scopes → binding ∈ scope.bindings →
      FromSource room binding.2

theorem Value.FromSource.readable {room : Room} {value : Value} (h : value.FromSource room) :
    value.Readable room.readings := by
  induction h with
  | returned hroom _ hresult ih =>
      subst hroom
      obtain ⟨-, hvalue, -, -⟩ := Session.run_readable _ _ (fun _ => id) ih
      exact (hvalue _ hresult).1
  | bound hroom _ hscope hbinding ih =>
      subst hroom
      obtain ⟨-, -, -, hafter⟩ := Session.run_readable _ _ (fun _ => id) ih
      exact hafter _ hscope _ hbinding

/-- A value from a source is readable where reading has no limit. -/
theorem Env.Holds.readable {room : Room} {env : Env} (h : env.Holds (Value.FromSource room)) :
    env.Holds (Value.Readable none) := by
  intro scope hscope binding hbinding
  exact ⟨(h scope hscope binding hbinding).readable.wellFormed, rfl⟩

namespace Session

/-- In a session that begins with values from sources only, let a source be run after any runs, all
in the same room. What comes out is the value that is found, if there is room to write it, and it
reads back. Otherwise it is a failure to tokenize, to parse or to evaluate, of which a missing rule
is never the reason, or the value that is found is lost, as there is no room to write it. All values
that are bound in the environment after the run read back. -/
theorem values_read_back {room : Room} {env : Env} (henv : env.Holds (Value.FromSource room))
    {runs : List (Config × String)} (hruns : ∀ run ∈ runs, run.1.room = room) (config : Config)
    (hroom : config.room = room) (source : String) :
    let outcome := run config source (after env runs)
    outcome.result ≠ .error (.evaluate .noRule) ∧
      (∀ value, outcome.result = .ok value →
        value.write room = some value.text ∧ value.ReadsBack room) ∧
      (∀ value, outcome.result = .error (.write value) →
        value.write room = none ∧ value.ReadsBack room) ∧
      outcome.env.Holds (Value.ReadsBack room) := by
  intro outcome
  subst hroom
  have hreadable : env.Holds (Value.Readable config.room.readings) := by
    intro scope hscope binding hbinding
    exact (henv scope hscope binding hbinding).readable
  have hnow := after_readable runs (fun run hmem height h => by rwa [hruns run hmem] at h) hreadable
  obtain ⟨hrule, hvalue, hlost, hafter⟩ := run_readable config source (fun _ => id) hnow
  refine ⟨hrule, ?_, ?_, ?_⟩
  · intro value hok
    obtain ⟨hread, hcells⟩ := hvalue value hok
    exact ⟨Value.write_eq_some_iff.2 ⟨hcells, rfl⟩, hread.readsBack⟩
  · intro value hwrite
    obtain ⟨hread, hcells⟩ := hlost value hwrite
    exact ⟨Value.write_eq_none_iff.2 hcells, hread.readsBack⟩
  · intro scope hscope binding hbinding
    exact (hafter scope hscope binding hbinding).readsBack

/-- The value of `(lambda (x) (^ x))`. -/
def negation : Value := .lambda ["x"] (.call (.op .not) [.ident "x"])

theorem holds_negation :
    (Env.ofList [("f", negation)]).Holds (Value.FromSource (some roomCells)) := by
  intro scope hscope binding hbinding
  rw [List.mem_singleton.1 hscope] at hbinding
  rw [List.mem_singleton.1 hbinding]
  exact @Value.FromSource.returned _ {} "(lambda (x) (^ x))" .empty _ rfl Env.holds_empty
    (by decide +kernel)

/-- A lambda is bound by a run that fails after that, another run is not read, and then the lambda
is called and returned. -/
theorem values_read_back_negation :
    let env := Env.ofList [("f", negation)]
    let failing : List (Config × String) :=
      [({}, "(& (def g (lambda (y) (f y))) (g F) z)"), ({}, "(g F")]
    let value := Value.lambda ["y"] (.call (.ident "f") [.ident "y"])
    (run {} "g" (after env failing)).result = .ok value ∧ value.ReadsBack (some roomCells) ∧
      (run {} "g" (after env failing)).env.Holds (Value.ReadsBack (some roomCells)) := by
  intro env failing value
  have hresult : (run {} "g" (after env failing)).result = .ok value := by decide +kernel
  have hfailing : ∀ run ∈ failing, run.1.room = some roomCells := by simp [failing]
  obtain ⟨-, hvalue, -, hafter⟩ := values_read_back holds_negation hfailing {} rfl "g"
  exact ⟨hresult, (hvalue value hresult).2, hafter⟩

/-- A lambda with a tall body. -/
def tall : Value := .lambda [] (Expr.conditions 400)

theorem exists_toList_text_tall : ∃ rest, tall.text.toList = '(' :: rest := by
  rw [tall, Value.text, Value.toExpr, Expr.text]
  simp only [String.toList_append, List.append_assoc]
  exact ⟨_, rfl⟩

theorem readable_tall {limit : Option Nat} (h : Reader.admits limit 402 = true) :
    tall.Readable limit := by
  have hheight : tall.toExpr.height = 402 := by
    rw [tall, Value.toExpr, Expr.height, Expr.height_conditions]
  refine ⟨.lambda nofun (Expr.wellFormed_conditions 400), ?_⟩
  rw [hheight]
  exact h

/-- In a room like the one of a run by default, a lambda with a tall body is found and lost. -/
theorem run_tall (config : Config) {cells : Nat} (hroom : config.room = some cells)
    (hleast : 809 ≤ cells) (hmost : cells < 1207) (hnesting : 0 < config.nesting)
    (hverbosity : config.verbosity ≤ 0) (env : Env) :
    (run config tall.text env).result = .error (.write tall) ∧
      (run config tall.text env).env = env := by
  have hcells : tall.cells = 1207 := by
    rw [tall, Value.cells, Value.toExpr, Expr.cells, Expr.cells_conditions]
  have hreadable : tall.Readable config.room.readings := by
    apply readable_tall
    rw [hroom]
    simp only [Room.readings, Reader.admits, Option.map_some, Option.all_some, decide_eq_true_eq]
    omega
  have hsome : config.room ≠ some 0 := by
    rw [hroom, ne_eq, Option.some_inj]
    omega
  have hlost : config.room.holds tall.cells = false := by
    rw [hroom, hcells, Room.holds, Option.all_some, decide_eq_false_iff_not]
    omega
  obtain ⟨hresult, henv⟩ :=
    hreadable.run_text config hnesting hsome (Evaluation.fits_of_nonpos hverbosity _ _) env
  exact ⟨hresult.trans (comesOut_eq_error.2 (.inr ⟨tall, rfl, hlost, rfl⟩)), henv⟩

/-- A run by default may give back no value and tell no failure either. -/
theorem run_tall_lost :
    let result := (run {} tall.text .empty).result
    (∀ value, result ≠ .ok value) ∧
      ∀ failure, result = .error failure → failure.isTold = false := by
  intro result
  obtain ⟨hresult, -⟩ := run_tall {} rfl (by decide) (by decide) (by decide) (by decide) .empty
  refine ⟨?_, ?_⟩
  · intro value hok
    cases hok.symm.trans hresult
  · intro failure hfails
    rw [Except.error.inj (hfails.symm.trans hresult)]
    rfl

end Session

end PrefixLogic
