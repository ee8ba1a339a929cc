import PrefixLogic.Proofs.Evaluation.Correspondence
import PrefixLogic.Session.Shared

/-!
# Traces at different verbosities

The verbosity of a run chooses which events are recorded, and nothing else, as long as there is room
to write them. A run at any verbosity goes on beside a run that records more and is not stopped for
lack of room, and records those of its events whose level the verbosity admits
(`Session.run_withVerbosity`). So each trace is a part of the one at the next verbosity, and the
messages that it lacks are told by how they begin (`Store.run_layered`).

An evaluation by itself records no event of level 1. At this level the run of a source says what
went in and what came out, and no more. What it does not say is that an expression has no rule.
-/

namespace PrefixLogic

open Evaluation (State Correspondence ending eval evaluate_eq)

/-- The same configuration at another verbosity. -/
def Config.withVerbosity (config : Config) (level : Int) : Config :=
  { config with verbosity := level }

/-! ## Messages -/

/-- The messages of a trace. -/
def Trace.messages (trace : Trace) : List String := trace.map Event.text

/-- Whether a message begins in one of these ways. -/
def beginsWith (openings : List String) (message : String) : Bool :=
  openings.any fun opening => opening.toList.isPrefixOf message.toList

/-- The messages that begin in none of these ways. -/
def without (openings messages : List String) : List String :=
  messages.filter fun message => !beginsWith openings message

namespace Event

/-- How the message of an event begins. -/
def opening : Event → String
  | input _ => "input "
  | result _ => "result "
  | failed _ => "error "
  | defined _ _ => "def "
  | called _ _ _ => "call "
  | visited _ => "eval "
  | decided _ _ => "if condition "

theorem exists_text_eq (event : Event) : ∃ rest, event.text = event.opening ++ rest := by
  cases event with
  | defined name value =>
      refine ⟨name ++ " = " ++ value.text, ?_⟩
      simp only [← String.append_assoc]
      rfl
  | called params body arguments =>
      refine ⟨(Value.lambda params body).text ++ " with (" ++
        " ".intercalate (arguments.map Value.text) ++ ")", ?_⟩
      simp only [← String.append_assoc]
      rfl
  | decided test value =>
      refine ⟨test.text ++ " -> " ++ Expr.boolText value, ?_⟩
      simp only [← String.append_assoc]
      rfl
  | _ => exact ⟨_, rfl⟩

/-- Single steps are told by how their messages begin. -/
theorem beginsWith_step (event : Event) :
    beginsWith ["eval ", "if condition "] event.text = decide (event.level = 3) := by
  obtain ⟨rest, hrest⟩ := event.exists_text_eq
  rw [hrest, beginsWith]
  cases event <;> simp [opening, level, List.isPrefixOf_cons_cons]

/-- Bindings and calls are told by how their messages begin. -/
theorem beginsWith_binding (event : Event) :
    beginsWith ["def ", "call "] event.text = decide (event.level = 2) := by
  obtain ⟨rest, hrest⟩ := event.exists_text_eq
  rw [hrest, beginsWith]
  cases event <;> simp [opening, level, List.isPrefixOf_cons_cons]

end Event

/-- Removing the messages that begin in some ways removes the events whose messages do. -/
theorem Trace.without_messages {openings : List String} {removed : Event → Bool}
    (h : ∀ event : Event, beginsWith openings event.text = removed event) (trace : Trace) :
    without openings trace.messages =
      Trace.messages (trace.filter fun event => !removed event) := by
  rw [messages, messages, without, List.filter_map]
  congr 1
  apply List.filter_congr
  intro event _
  rw [Function.comp_apply, h]

/-- The events of a trace that are recorded at a verbosity. -/
def Trace.upTo (level : Int) (trace : Trace) : Trace := trace.filter (Event.isRecorded level)

theorem Trace.upTo_append (level : Int) (trace more : Trace) :
    upTo level (trace ++ more) = upTo level trace ++ upTo level more :=
  List.filter_append trace more

/-- Everything that is recorded at one verbosity is recorded at another one. -/
def Covers (full level : Int) : Prop :=
  ∀ event : Event, event.isRecorded level = true → event.isRecorded full = true

theorem covers_self (level : Int) : Covers level level := fun _ => id

theorem covers_three (level : Int) : Covers 3 level := fun event _ => decide_eq_true event.level_le

theorem covers_of_le {full level : Int} (h : level ≤ full) : Covers full level := by
  intro event hrecorded
  simp only [Event.isRecorded, decide_eq_true_eq] at hrecorded ⊢
  omega

theorem Trace.upTo_ofEvent {full level : Int} (h : Covers full level) (event : Event) :
    upTo level (ofEvent full event) = ofEvent level event := by
  rw [ofEvent, upTo, ofEvent]
  by_cases hfull : event.isRecorded full = true
  · by_cases hlevel : event.isRecorded level = true <;> simp [hfull, hlevel]
  · have hlevel : ¬event.isRecorded level = true := fun hlevel => hfull (h event hlevel)
    simp [hfull, hlevel]

theorem Trace.upTo_of_nonpos {level : Int} (h : level ≤ 0) (trace : Trace) :
    upTo level trace = [] := by
  apply List.filter_eq_nil_iff.2
  intro event _
  have hpos := event.level_pos
  simp only [Event.isRecorded, decide_eq_true_eq]
  omega

theorem Trace.upTo_of_three_le {level : Int} (h : 3 ≤ level) (trace : Trace) :
    upTo level trace = trace := by
  apply List.filter_eq_self.2
  intro event _
  exact decide_eq_true (event.level_le.trans h)

/-- Without the events of its own level, a verbosity records what the one below it does. -/
theorem Trace.filter_upTo (level : Int) (trace : Trace) :
    (upTo level trace).filter (fun event => !decide (event.level = level)) =
      upTo (level - 1) trace := by
  rw [upTo, upTo, List.filter_filter]
  apply List.filter_congr
  intro event _
  rw [Bool.eq_iff_iff]
  simp only [Event.isRecorded, Bool.and_eq_true, Bool.not_eq_true', decide_eq_true_eq,
    decide_eq_false_iff_not]
  omega

/-- An outcome with no more than what is recorded at a verbosity. -/
def Outcome.upTo {ε : Type} (level : Int) (outcome : Outcome ε) : Outcome ε :=
  { outcome with trace := outcome.trace.upTo level }

/-! ## Evaluation -/

namespace Evaluation

/-- Evaluations record no event of level 1. -/
theorem level_ne_one {code : Expr → Prop} {value : Value → Prop} {event : Event}
    (h : event.ArisesFrom code value) : event.level ≠ 1 := by
  cases event with
  | input source => cases h
  | result value => cases h
  | failed failure => cases h
  | _ => simp [Event.level]

/-- An evaluation beside one that records less of it. The first one may stop for these reasons. -/
def recording (config : Config) {full level : Int} (hcovers : Covers full level)
    (stops : EvalError → Prop) :
    Correspondence (config.withVerbosity full) (config.withVerbosity level) where
  code _ := True
  value _ := True
  error _ := True
  stops := stops
  state outer outer' := outer'.env = outer.env ∧
    outer'.events.toList = Trace.upTo level outer.events.toList ∧
    ∀ event ∈ outer.events.toList, event.level ≠ 1
  maxDepth_eq := rfl
  carried := carried_true
  error_arises _ := trivial
  get?_eq := by
    rintro name outer outer' - ⟨henv, -⟩
    rw [henv]
  value_get? _ _ _ := trivial
  recorded := by
    rintro event outer outer' harises ⟨henv, hevents, hlevels⟩
    refine ⟨henv, ?_, ?_⟩
    · rw [events_recorded, events_recorded, Trace.upTo_append, hevents]
      exact congrArg _ (Trace.upTo_ofEvent hcovers event).symm
    · rw [events_recorded, List.forall_mem_append]
      refine ⟨hlevels, ?_⟩
      intro other hother
      rw [Trace.ofEvent] at hother
      split at hother
      · rw [List.mem_singleton.1 hother]
        exact level_ne_one harises
      · cases hother
  insert := by
    rintro outer outer' name bound - ⟨henv, hevents⟩
    exact ⟨congrArg (·.insert name bound) henv, hevents⟩
  enter := by
    rintro outer outer' params arguments - ⟨henv, hevents⟩
    exact ⟨congrArg (Env.enter · (.ofList (params.zip arguments))) henv, hevents⟩
  leave := by
    rintro outer outer' inner inner' ⟨henv, -⟩ ⟨-, hevents⟩
    exact ⟨henv, hevents⟩

/-- What evaluations at two verbosities have in common, if the first one is not stopped. -/
theorem evaluate_of_recording {config : Config} {full level : Int} {hcovers : Covers full level}
    {stops : EvalError → Prop} {expr : Expr} {env : Env}
    (hroom : (recording config hcovers stops).Rooms config.room config.room)
    (hresult : ∀ reason, (expr.evaluate (config.withVerbosity full) env).result = .error reason →
      ¬stops reason) :
    expr.evaluate (config.withVerbosity level) env =
        (expr.evaluate (config.withVerbosity full) env).upTo level ∧
      ∀ event ∈ (expr.evaluate (config.withVerbosity full) env).trace, event.level ≠ 1 := by
  have hruns : (recording config hcovers stops).Runs 0 (fun _ => True)
      (eval (config.withVerbosity full) config.nesting config.room expr)
      (eval (config.withVerbosity level) config.nesting config.room expr) :=
    (recording config hcovers stops).runs_eval trivial (.inl rfl) hroom trivial
  obtain ⟨halike, -⟩ := hruns (.start env) (.start env) ⟨⟨rfl, rfl, nofun⟩, rfl, rfl⟩
  have houtcome (verbosity : Int) : expr.evaluate (config.withVerbosity verbosity) env =
      let ends := ending (eval (config.withVerbosity verbosity) config.nesting config.room expr)
        (.start env)
      ⟨ends.1, ends.2.env, ends.2.events.toList⟩ := evaluate_eq _ _ _
  rw [houtcome] at hresult
  rw [houtcome, houtcome]
  generalize ending (eval (config.withVerbosity full) config.nesting config.room expr) _ = ends,
    ending (eval (config.withVerbosity level) config.nesting config.room expr) _ = ends'
    at halike hresult ⊢
  cases halike with
  | same result hafter =>
      obtain ⟨⟨henv, hevents, hlevels⟩, -, -⟩ := hafter
      refine ⟨?_, hlevels⟩
      change Outcome.mk _ _ _ = Outcome.mk _ _ _
      congr 1
  | @stop reason _ _ hstop => exact absurd hstop (hresult reason rfl)

end Evaluation

/-- An evaluation at a verbosity does what one at a higher verbosity does, and records those of its
events that the verbosity admits, unless the first one is stopped for lack of room. -/
theorem Expr.evaluate_withVerbosity (config : Config) (expr : Expr) (env : Env) {full level : Int}
    (hcovers : Covers full level)
    (hroom : config.room = none ∨
      (expr.evaluate (config.withVerbosity full) env).result ≠ .error .nesting) :
    expr.evaluate (config.withVerbosity level) env =
      (expr.evaluate (config.withVerbosity full) env).upTo level := by
  rcases hroom with hroom | hresult
  · have hfree : (Evaluation.recording config hcovers fun _ => False).Rooms config.room
        config.room := by
      rw [hroom]
      exact .free
    exact (Evaluation.evaluate_of_recording hfree fun _ _ => id).1
  · have hquieter : (Evaluation.recording config hcovers (· = .nesting)).Rooms config.room
        config.room := .wider trivial rfl config.room.isWithin_self (.inr hcovers)
    refine (Evaluation.evaluate_of_recording hquieter ?_).1
    rintro reason hreason rfl
    exact hresult hreason

/-- An evaluation records nothing that its verbosity does not admit, and nothing of level 1. -/
theorem Expr.trace_evaluate (config : Config) (expr : Expr) (env : Env) (level : Int) :
    let trace := (expr.evaluate (config.withVerbosity level) env).trace
    trace = trace.upTo level ∧ ∀ event ∈ trace, event.level ≠ 1 := by
  have hrooms : (Evaluation.recording config (covers_self level) fun _ => False).Rooms config.room
      config.room := .same config.room trivial rfl
  obtain ⟨heq, hlevels⟩ := Evaluation.evaluate_of_recording hrooms fun _ _ => id
  exact ⟨congrArg Outcome.trace heq, hlevels⟩

/-! ## Sources -/

namespace Session

theorem runQuietly_withVerbosity (config : Config) (source : String) (env : Env)
    {full level : Int} (hcovers : Covers full level)
    (hroom : config.room = none ∨
      (runQuietly (config.withVerbosity full) source env).result ≠ .error (.evaluate .nesting)) :
    runQuietly (config.withVerbosity level) source env =
      (runQuietly (config.withVerbosity full) source env).upTo level := by
  have hsame (verbosity : Int) : (config.withVerbosity verbosity).room = config.room := rfl
  rw [runQuietly, hsame] at hroom
  rw [runQuietly, runQuietly, hsame, hsame]
  cases hread : read config.room source with
  | error failure => rfl
  | ok expr =>
      rw [hread] at hroom
      have heq := Expr.evaluate_withVerbosity config expr env hcovers (hroom.imp_right fun hne h =>
        hne (congrArg (Except.mapError Failure.evaluate) h))
      dsimp only
      rw [heq]
      rfl

/-- What is recorded at the end of a run is what came out. -/
theorem lastEvent?_eq_some {result : Except Failure Value} {event : Event}
    (h : lastEvent? result = some event) :
    (∃ value, result = .ok value ∧ event = .result value) ∨
      ∃ failure, result = .error failure ∧ failure.isTold = true ∧ event = .failed failure := by
  cases result with
  | ok value => exact .inl ⟨value, rfl, (Option.some.inj h).symm⟩
  | error failure =>
      rw [lastEvent?] at h
      cases htold : failure.isTold with
      | false => simp [htold] at h
      | true =>
          rw [htold, if_pos rfl] at h
          exact .inr ⟨failure, rfl, htold, (Option.some.inj h).symm⟩

/-- What is recorded at the end of a run, at a verbosity. -/
def ending (level : Int) (result : Except Failure Value) : Trace :=
  (lastEvent? result).elim [] (Trace.ofEvent level)

theorem upTo_ending {full level : Int} (hcovers : Covers full level)
    (result : Except Failure Value) :
    Trace.upTo level (ending full result) = ending level result := by
  rw [ending, ending]
  cases lastEvent? result with
  | none => rfl
  | some event => exact Trace.upTo_ofEvent hcovers event

/-- A run at a verbosity does what one at a higher verbosity does, and records those of its events
that the verbosity admits, unless the first one is stopped for lack of room. -/
theorem run_withVerbosity (config : Config) (source : String) (env : Env) {full level : Int}
    (hcovers : Covers full level)
    (hroom : config.room = none ∨
      (run (config.withVerbosity full) source env).result ≠ .error (.evaluate .nesting)) :
    run (config.withVerbosity level) source env =
      (run (config.withVerbosity full) source env).upTo level := by
  have heq := runQuietly_withVerbosity config source env hcovers (hroom.imp_right fun hne h =>
    hne (comesOut_eq_error.2 (.inl h)))
  generalize hfull : runQuietly (config.withVerbosity full) source env = outcome at heq
  have htrace : Trace.upTo level (Trace.ofEvent full (.input source) ++ outcome.trace ++
      ending full (comesOut config.room outcome.result)) =
        Trace.ofEvent level (.input source) ++ outcome.trace.upTo level ++
          ending level (comesOut config.room outcome.result) := by
    rw [Trace.upTo_append, Trace.upTo_append, Trace.upTo_ofEvent hcovers, upTo_ending hcovers]
  unfold run
  rw [heq, hfull]
  exact congrArg (Outcome.mk (comesOut config.room outcome.result) outcome.env) htrace.symm

/-- What is recorded last, as a message: what came out, unless it is a fault. -/
def lastMessages : Except Failure Value → List String
  | .ok value => ["result " ++ value.text]
  | .error (.evaluate .noRule) | .error (.write _) => []
  | .error failure => ["error " ++ (failure.kind ++ ": " ++ failure.message)]

theorem messages_ending (result : Except Failure Value) :
    Trace.messages (ending 1 result) = lastMessages result := by
  cases result with
  | ok value => rfl
  | error failure =>
      cases failure with
      | tokenize error => rfl
      | parse error => rfl
      | evaluate reason => cases reason <;> rfl
      | write value => rfl

/-- What is recorded between what goes in and what comes out is not of level 1. -/
theorem trace_runQuietly (config : Config) (source : String) (env : Env) :
    let trace := (runQuietly config source env).trace
    trace = trace.upTo config.verbosity ∧ ∀ event ∈ trace, event.level ≠ 1 := by
  unfold runQuietly
  cases read config.room source with
  | error failure => exact ⟨rfl, List.forall_mem_nil _⟩
  | ok expr => exact expr.trace_evaluate config env config.verbosity

/-- At verbosity 1, an evaluation records nothing. -/
theorem trace_runQuietly_one (config : Config) (source : String) (env : Env) :
    (runQuietly (config.withVerbosity 1) source env).trace = [] := by
  obtain ⟨heq, hlevels⟩ := trace_runQuietly (config.withVerbosity 1) source env
  rw [heq]
  apply List.filter_eq_nil_iff.2
  intro event hmem
  have hpos := event.level_pos
  have hlevel := hlevels event hmem
  rw [Event.isRecorded, decide_eq_true_eq]
  change ¬event.level ≤ 1
  omega

/-- At verbosity 1, a run records what went in and what came out. -/
theorem messages_run (config : Config) (source : String) (env : Env) :
    (run (config.withVerbosity 1) source env).trace.messages =
      ("input " ++ Text.quoted source) ::
        lastMessages (run (config.withVerbosity 1) source env).result := by
  rw [← messages_ending]
  unfold run
  dsimp only
  rw [trace_runQuietly_one]
  rfl

end Session

/-! ## Environments that share scopes -/

namespace Store

/-- Runs at all verbosities that do the same and record more or less of it. Nothing is recorded
without a positive verbosity, and all of it from 3 on. The verbosity 2 lacks the messages about
single steps, and the verbosity 1 those about bindings and calls as well. -/
structure Layered {ε : Type} (runAt : Int → Outcome ε × Store) : Prop where
  result_eq : ∀ level, (runAt level).1.result = (runAt 0).1.result
  env_eq : ∀ level, (runAt level).1.env = (runAt 0).1.env
  store_eq : ∀ level, (runAt level).2 = (runAt 0).2
  silent : ∀ level ≤ 0, (runAt level).1.trace.messages = []
  full : ∀ level ≥ 3, (runAt level).1.trace.messages = (runAt 3).1.trace.messages
  steps : (runAt 2).1.trace.messages =
    without ["eval ", "if condition "] (runAt 3).1.trace.messages
  bindings : (runAt 1).1.trace.messages =
    without ["def ", "call "] (runAt 2).1.trace.messages

theorem layered_runIn {ε : Type} {store : Store} {handle : Nat} {runAt : Int → Env → Outcome ε}
    (h : ∀ level, runAt level (store.env handle) = (runAt 3 (store.env handle)).upTo level) :
    Layered fun level => store.runIn handle (runAt level) := by
  have hrun (level : Int) : (store.runIn handle (runAt level)).1 =
      (runAt 3 (store.env handle)).upTo level := h level
  have hresult (level : Int) : (runAt level (store.env handle)).result =
      (runAt 0 (store.env handle)).result := by
    rw [h level, h 0]
    rfl
  have henv (level : Int) : (runAt level (store.env handle)).env =
      (runAt 0 (store.env handle)).env := by
    rw [h level, h 0]
    rfl
  constructor
  case result_eq => exact hresult
  case env_eq => exact henv
  case store_eq => exact fun level => congrArg (store.setEnv handle) (henv level)
  case silent =>
    intro level hlevel
    rw [hrun, Outcome.upTo, Trace.upTo_of_nonpos hlevel]
    rfl
  case full =>
    intro level hlevel
    rw [hrun, hrun, Outcome.upTo, Outcome.upTo, Trace.upTo_of_three_le hlevel,
      Trace.upTo_of_three_le (le_refl 3)]
  case steps =>
    -- what is left out is the events of the highest level, which are known by how they begin
    rw [hrun, hrun, Outcome.upTo, Outcome.upTo, Trace.without_messages Event.beginsWith_step]
    exact congrArg Trace.messages (Trace.filter_upTo 3 _).symm
  case bindings =>
    rw [hrun, hrun, Outcome.upTo, Outcome.upTo, Trace.without_messages Event.beginsWith_binding]
    exact congrArg Trace.messages (Trace.filter_upTo 2 _).symm

/-- Evaluations and runs at all verbosities do the same and record more or less of it, if there is
room without limit, or at least enough for the highest verbosity. At verbosity 1, a run records what
went in and then what came out, unless that is a fault. -/
theorem run_layered (config : Config) (store : Store) (handle : Nat) :
    (∀ expr, (config.room = none ∨
        (store.evaluate (config.withVerbosity 3) expr handle).1.result ≠ .error .nesting) →
      Layered fun level => store.evaluate (config.withVerbosity level) expr handle) ∧
    ∀ source,
      ((config.room = none ∨
          (store.run (config.withVerbosity 3) source handle).1.result ≠
            .error (.evaluate .nesting)) →
        Layered fun level => store.run (config.withVerbosity level) source handle) ∧
      (store.run (config.withVerbosity 1) source handle).1.trace.messages =
        ("input " ++ Text.quoted source) ::
          Session.lastMessages (store.run (config.withVerbosity 1) source handle).1.result := by
  refine ⟨?_, fun source => ⟨?_, ?_⟩⟩
  · intro expr hroom
    apply layered_runIn
    intro level
    exact Expr.evaluate_withVerbosity config expr _ (covers_three level) hroom
  · intro hroom
    apply layered_runIn
    intro level
    exact Session.run_withVerbosity config source _ (covers_three level) hroom
  · exact Session.messages_run config source _

/-- A call and a binding are recorded at verbosity 2, and single steps above it. A tree that is
evaluated by itself is recorded without what goes in. -/
theorem run_layered_call :
    let store : Store := [⟨.ofList [("f", .lambda ["x"] (.call (.op .not) [.ident "x"]))], none⟩]
    let source := "(def y (f T))"
    let messages (level : Int) :=
      (store.run ({ : Config }.withVerbosity level) source 0).1.trace.messages
    messages 2 = without ["eval ", "if condition "] (messages 3) ∧
      messages 2 = ["input '(def y (f T))'", "call (lambda (x) (^ x)) with (T)", "def y = F",
        "result F"] ∧
      messages 7 = messages 3 ∧ messages (-1) = [] ∧
      (store.evaluate ({ : Config }.withVerbosity 5) (.ident "z") 0).1.result =
        (store.evaluate ({ : Config }.withVerbosity 0) (.ident "z") 0).1.result := by
  intro store source messages
  obtain ⟨hevaluated, hrun⟩ := run_layered {} store 0
  have hresult : (store.run ({ : Config }.withVerbosity 3) source 0).1.result =
      .ok (.bool false) := by decide +kernel
  have hlayers := (hrun source).1 (.inr (by rw [hresult]; nofun))
  have hfailing : (store.evaluate ({ : Config }.withVerbosity 3) (.ident "z") 0).1.result =
      .error (.notDefined "z") := by decide +kernel
  have htree := hevaluated (.ident "z") (.inr (by rw [hfailing]; nofun))
  exact ⟨hlayers.steps, by decide +kernel, hlayers.full 7 (by decide),
    hlayers.silent (-1) (by decide), htree.result_eq 5⟩

/-- A call of a hand-made lambda whose body has no rule fails without a word at verbosity 1. -/
theorem run_hole_untold :
    let store : Store := [⟨.ofList [("f", .lambda [] .hole)], none⟩]
    let outcome := (store.run ({ : Config }.withVerbosity 1) "(f)" 0).1
    outcome.result = .error (.evaluate .noRule) ∧
      ¬∃ last, outcome.trace.messages = ["input '(f)'", last] := by
  intro store outcome
  have hrun : outcome.result = .error (.evaluate .noRule) ∧
      outcome.trace.messages = ["input '(f)'"] := by decide +kernel
  refine ⟨hrun.1, ?_⟩
  rintro ⟨last, htold⟩
  rw [hrun.2] at htold
  exact List.cons_ne_nil last [] (List.cons.inj htold).2.symm

end Store

end PrefixLogic
