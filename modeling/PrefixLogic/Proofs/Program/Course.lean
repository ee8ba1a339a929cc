import PrefixLogic.CommandLine
import PrefixLogic.Proofs.Session.Room
import PrefixLogic.Proofs.Session.Verbosity
import PrefixLogic.Proofs.Text.Lines

/-!
# The course of a program

A program runs its lines in order, but for blank ones, up to the first line that fails. These runs
are the course of the program (`Program.course`), and what the program has done is what they have
done, one after the other (`Program.foldl_runLine`).

The verbosity of a program chooses what is recorded of its runs, and nothing else, as long as there
is room to record it (`Program.run_withVerbosity`). At any positive one, the trace names the lines
of the course (`Program.inputs_run`). More room makes no difference to a program that is not stopped
for lack of it (`Program.run_of_isWithin`).
-/

namespace PrefixLogic

/-- What a program writes about a run: the value, if there is one. -/
def Outcome.printed (outcome : Outcome Failure) : String :=
  match outcome.result with
  | .ok value => value.text ++ "\n"
  | .error _ => ""

/-- The failure of a run, if it has failed. -/
def Outcome.failure? (outcome : Outcome Failure) : Option Failure :=
  match outcome.result with
  | .ok _ => none
  | .error failure => some failure

theorem Outcome.failure?_of_ok {outcome : Outcome Failure} {value : Value}
    (h : outcome.result = .ok value) : outcome.failure? = none := by
  rw [failure?, h]

theorem Outcome.failure?_of_error {outcome : Outcome Failure} {failure : Failure}
    (h : outcome.result = .error failure) : outcome.failure? = some failure := by
  rw [failure?, h]

theorem Outcome.result_of_failure? {outcome : Outcome Failure} {failure : Failure}
    (h : outcome.failure? = some failure) : outcome.result = .error failure := by
  obtain ⟨result, env, trace⟩ := outcome
  cases result with
  | ok value => cases h
  | error other => exact congrArg Except.error (Option.some.inj h)

/-- Nothing is written about a run that fails. -/
theorem Outcome.printed_of_failure {outcome : Outcome Failure} {failure : Failure}
    (h : outcome.failure? = some failure) : outcome.printed = "" := by
  obtain ⟨result, env, trace⟩ := outcome
  cases result with
  | ok value => cases h
  | error failure => rfl

/-- The source that went in, if that is what an event tells. -/
def Event.input? : Event → Option String
  | input source => some source
  | _ => none

/-- The sources that went in, as a trace tells them. -/
def Trace.inputs (trace : Trace) : List String := trace.filterMap Event.input?

theorem Event.input?_of_level_ne_one {event : Event} (h : event.level ≠ 1) :
    event.input? = none := by
  cases event with
  | input source => exact absurd rfl h
  | _ => rfl

theorem Trace.inputs_append (trace more : Trace) :
    inputs (trace ++ more) = inputs trace ++ inputs more :=
  List.filterMap_append

theorem Trace.inputs_eq_nil {trace : Trace} (h : ∀ event ∈ trace, event.input? = none) :
    trace.inputs = [] :=
  List.filterMap_eq_nil_iff.2 h

/-- What is recorded at the end of a run is no source. -/
theorem Session.inputs_ending (level : Int) (result : Except Failure Value) :
    (ending level result).inputs = [] := by
  have hlast : ∀ event ∈ lastEvent? result, event.input? = none := by
    intro event hevent
    rcases lastEvent?_eq_some hevent with ⟨value, -, rfl⟩ | ⟨failure, -, -, rfl⟩ <;> rfl
  rw [ending]
  cases hevent : lastEvent? result with
  | none => rfl
  | some event =>
      apply Trace.inputs_eq_nil
      intro other hmem
      rw [Option.elim_some, Trace.ofEvent] at hmem
      split at hmem
      · rw [List.mem_singleton.1 hmem]
        exact hlast event hevent
      · cases hmem

/-- At a positive verbosity, a run tells the source that went in, and no other. -/
theorem Session.inputs_run {config : Config} (h : 0 < config.verbosity) (source : String)
    (env : Env) : (run config source env).trace.inputs = [source] := by
  have hfirst : Trace.ofEvent config.verbosity (.input source) = [.input source] :=
    if_pos (decide_eq_true h)
  have hevaluation : (runQuietly config source env).trace.inputs = [] := by
    apply Trace.inputs_eq_nil
    intro event hmem
    exact Event.input?_of_level_ne_one ((trace_runQuietly config source env).2 event hmem)
  change Trace.inputs (_ ++ _ ++ ending _ _) = _
  rw [Trace.inputs_append, Trace.inputs_append, hfirst, hevaluation, inputs_ending]
  rfl

namespace Program

/-- What has been done after one more run. -/
def Progress.add (progress : Progress) (outcome : Outcome Failure) : Progress :=
  ⟨outcome.env, progress.output ++ outcome.printed, progress.trace ++ outcome.trace,
    outcome.failure?⟩

/-- The runs of lines in an environment, each with its line: those of the lines that are not blank,
up to the first one that fails. -/
def course (config : Config) : Env → List String → List (String × Outcome Failure)
  | _, [] => []
  | env, line :: lines =>
    if Text.isBlankText line then course config env lines
    else
      let outcome := Session.run config line env
      (line, outcome) :: if outcome.failure?.isSome then [] else course config outcome.env lines

section

variable {config : Config} {env : Env} {line : String}

theorem course_cons_of_blank (h : Text.isBlankText line = true) (lines : List String) :
    course config env (line :: lines) = course config env lines := if_pos h

theorem course_cons_of_none (h : ¬Text.isBlankText line = true)
    (hfails : (Session.run config line env).failure? = none) (lines : List String) :
    course config env (line :: lines) =
      (line, Session.run config line env) ::
        course config (Session.run config line env).env lines := by
  rw [course, if_neg h]
  simp [hfails]

theorem course_cons_of_some (h : ¬Text.isBlankText line = true) {failure : Failure}
    (hfails : (Session.run config line env).failure? = some failure) (lines : List String) :
    course config env (line :: lines) = [(line, Session.run config line env)] := by
  rw [course, if_neg h]
  simp [hfails]

end

/-! ## Line by line -/

/-- Nothing is run after a line that fails. -/
theorem foldl_runLine_of_failure (config : Config) {progress : Progress} {failure : Failure}
    (h : progress.failure = some failure) (lines : List String) :
    lines.foldl (runLine config) progress = progress := by
  induction lines with
  | nil => rfl
  | cons line lines ih => rw [List.foldl_cons, runLine, if_pos (by simp [h]), ih]

theorem runLine_of_blank (config : Config) (progress : Progress) {line : String}
    (h : Text.isBlankText line = true) : runLine config progress line = progress := by
  rw [runLine, if_pos (by simp [h])]

theorem foldl_runLine_of_blank (config : Config) (progress : Progress) {lines : List String}
    (h : ∀ line ∈ lines, Text.isBlankText line = true) :
    lines.foldl (runLine config) progress = progress := by
  induction lines with
  | nil => rfl
  | cons line lines ih =>
      rw [List.forall_mem_cons] at h
      rw [List.foldl_cons, runLine_of_blank config progress h.1, ih h.2]

/-- A line that is not blank is run, unless one before it has failed. -/
theorem runLine_of_not_blank (config : Config) {progress : Progress}
    (hfailure : progress.failure = none) {line : String} (h : ¬Text.isBlankText line = true) :
    runLine config progress line = progress.add (Session.run config line progress.env) := by
  rw [runLine, if_neg (by simp [hfailure, h])]
  generalize Session.run config line progress.env = outcome
  obtain ⟨result, env, trace⟩ := outcome
  cases result with
  | ok value => simp [Progress.add, Outcome.printed, Outcome.failure?, String.append_assoc]
  | error failure => simp [Progress.add, Outcome.printed, Outcome.failure?]

/-- What lines do is what the runs of their course do. -/
theorem foldl_runLine (config : Config) {progress : Progress} (hfailure : progress.failure = none)
    (lines : List String) :
    lines.foldl (runLine config) progress =
      ((course config progress.env lines).map Prod.snd).foldl Progress.add progress := by
  induction lines generalizing progress with
  | nil => rfl
  | cons line lines ih =>
      rw [List.foldl_cons]
      by_cases hblank : Text.isBlankText line = true
      · rw [runLine_of_blank config progress hblank, course_cons_of_blank hblank, ih hfailure]
      · rw [runLine_of_not_blank config hfailure hblank]
        -- the failure of the run is that of the program
        cases hfails : (Session.run config line progress.env).failure? with
        | none => rw [course_cons_of_none hblank hfails, ih hfails]; rfl
        | some failure =>
            rw [course_cons_of_some hblank hfails, foldl_runLine_of_failure config hfails]
            rfl

/-- A program of one line does what the run of the line does. -/
theorem run_line (config : Config) {line : String} (hline : Text.IsLine line)
    (hblank : ¬Text.isBlankText line = true) (env : Env) :
    run config (line ++ "\n") env =
      Progress.add ⟨env, "", [], none⟩ (Session.run config line env) := by
  rw [run, Text.storedLines_line hline, List.foldl_cons, List.foldl_nil,
    runLine_of_not_blank config rfl hblank]

/-! ## At different verbosities -/

/-- What has been done, with no more than what is recorded at a verbosity. -/
def Progress.upTo (level : Int) (progress : Progress) : Progress :=
  { progress with trace := progress.trace.upTo level }

/-- A failure of one of the runs is that of the program. -/
theorem failure_foldl_add (config : Config) (env : Env) (lines : List String)
    {run : String × Outcome Failure} (hrun : run ∈ course config env lines) {failure : Failure}
    (hfails : run.2.failure? = some failure) (progress : Progress) :
    (((course config env lines).map Prod.snd).foldl Progress.add progress).failure =
      some failure := by
  induction lines generalizing env progress with
  | nil => cases hrun
  | cons line lines ih =>
      by_cases hblank : Text.isBlankText line = true
      · rw [course_cons_of_blank hblank] at hrun ⊢
        exact ih env hrun progress
      · cases hfirst : (Session.run config line env).failure? with
        | none =>
            rw [course_cons_of_none hblank hfirst] at hrun ⊢
            rcases List.mem_cons.1 hrun with rfl | hrun
            · cases hfirst.symm.trans hfails
            · exact ih _ hrun _
        | some other =>
            rw [course_cons_of_some hblank hfirst] at hrun ⊢
            rw [List.mem_singleton.1 hrun] at hfails
            exact hfails

theorem foldl_add_upTo (level : Int) (outcomes : List (Outcome Failure)) (progress : Progress) :
    (outcomes.map (Outcome.upTo level)).foldl Progress.add (progress.upTo level) =
      (outcomes.foldl Progress.add progress).upTo level := by
  induction outcomes generalizing progress with
  | nil => rfl
  | cons outcome outcomes ih =>
      have hadd : (progress.upTo level).add (outcome.upTo level) =
          (progress.add outcome).upTo level := by
        simp only [Progress.add, Progress.upTo, Trace.upTo_append]
        rfl
      rw [List.map_cons, List.foldl_cons, hadd, ih, List.foldl_cons]

section

variable (config : Config) (env : Env) {full level : Int} (hcovers : Covers full level)

include hcovers

theorem course_withVerbosity (lines : List String)
    (hroom : config.room = none ∨ ∀ run ∈ course (config.withVerbosity full) env lines,
      run.2.result ≠ .error (.evaluate .nesting)) :
    course (config.withVerbosity level) env lines =
      (course (config.withVerbosity full) env lines).map fun run => (run.1, run.2.upTo level) := by
  -- for all environments, since the first run leaves another one to the rest
  induction lines generalizing env with
  | nil => rfl
  | cons line lines ih =>
      by_cases hblank : Text.isBlankText line = true
      · rw [course_cons_of_blank hblank] at hroom ⊢
        rw [course_cons_of_blank hblank, ih env hroom]
      · have hfirst : (line, Session.run (config.withVerbosity full) line env) ∈
            course (config.withVerbosity full) env (line :: lines) := by
          rw [course, if_neg hblank]
          exact List.mem_cons_self
        have hrun := Session.run_withVerbosity config line env hcovers
          (hroom.imp_right fun h => h _ hfirst)
        have hsame : (Session.run (config.withVerbosity level) line env).failure? =
            (Session.run (config.withVerbosity full) line env).failure? := by
          rw [hrun]
          rfl
        -- both go on if the line passes, and both stop if it fails
        cases hfails : (Session.run (config.withVerbosity full) line env).failure? with
        | none =>
            rw [course_cons_of_none hblank hfails] at hroom
            rw [course_cons_of_none hblank hfails, course_cons_of_none hblank (hsame.trans hfails),
              hrun]
            have hrest := ih (Session.run (config.withVerbosity full) line env).env
              (hroom.imp_right fun h => (List.forall_mem_cons.1 h).2)
            exact congrArg (List.cons _) hrest
        | some failure =>
            rw [course_cons_of_some hblank hfails, course_cons_of_some hblank (hsame.trans hfails),
              hrun]
            rfl

variable (text : String)
  (hroom : config.room = none ∨
    (run (config.withVerbosity full) text env).failure ≠ some (.evaluate .nesting))

include hroom

/-- The runs of a program that is not stopped for lack of room are the same at a lower verbosity. -/
theorem course_upTo :
    course (config.withVerbosity level) env (Text.storedLines text) =
      (course (config.withVerbosity full) env (Text.storedLines text)).map fun run =>
        (run.1, run.2.upTo level) := by
  apply course_withVerbosity config env hcovers
  refine hroom.imp_right fun hne run hrun hnesting => hne ?_
  rw [Program.run, foldl_runLine _ rfl]
  exact failure_foldl_add _ env _ hrun (Outcome.failure?_of_error hnesting) _

/-- A program at a verbosity does what it does at a higher one, if it is not stopped there for lack
of room, and records those of the events that the verbosity admits. -/
theorem run_withVerbosity :
    run (config.withVerbosity level) text env =
      (run (config.withVerbosity full) text env).upTo level := by
  have hcourse := course_upTo config env hcovers text hroom
  rw [run, run, foldl_runLine _ rfl, foldl_runLine _ rfl, ← foldl_add_upTo]
  dsimp only
  rw [hcourse, List.map_map, List.map_map]
  rfl

end

/-! ## With more room -/

section

variable {config : Config} {room : Room} (hwithin : config.room.IsWithin room)

include hwithin

theorem course_of_isWithin (env : Env) (lines : List String)
    (h : ∀ run ∈ course config env lines, ∀ failure, run.2.failure? = some failure →
      ¬failure.LacksRoom) :
    course (config.inRoom room) env lines = course config env lines := by
  induction lines generalizing env with
  | nil => rfl
  | cons line lines ih =>
      by_cases hblank : Text.isBlankText line = true
      · rw [course_cons_of_blank hblank] at h
        rw [course_cons_of_blank hblank, course_cons_of_blank hblank, ih env h]
      · have hfirst : (line, Session.run config line env) ∈ course config env (line :: lines) := by
          rw [course, if_neg hblank]
          exact List.mem_cons_self
        have hrun := Session.run_of_isWithin hwithin fun failure hfails =>
          h _ hfirst failure (Outcome.failure?_of_error hfails)
        cases hfails : (Session.run config line env).failure? with
        | none =>
            rw [course_cons_of_none hblank hfails] at h
            rw [course_cons_of_none hblank hfails, course_cons_of_none hblank (hrun ▸ hfails), hrun,
              ih _ (List.forall_mem_cons.1 h).2]
        | some failure =>
            rw [course_cons_of_some hblank hfails, course_cons_of_some hblank (hrun ▸ hfails), hrun]

/-- A program that is not stopped for lack of room does the same in more room. -/
theorem run_of_isWithin {text : String} {env : Env}
    (h : ∀ failure, (run config text env).failure = some failure → ¬failure.LacksRoom) :
    run (config.inRoom room) text env = run config text env := by
  have hcourse := course_of_isWithin hwithin env (Text.storedLines text) (by
    intro line hline failure hfails
    refine h failure ?_
    rw [run, foldl_runLine _ rfl]
    exact failure_foldl_add _ env _ hline hfails _)
  rw [run, run, foldl_runLine _ rfl, foldl_runLine _ rfl]
  dsimp only
  rw [hcourse]

end

/-! ## The lines that are run -/

/-- The lines of a program that are run. -/
def executed (config : Config) (text : String) (env : Env) : List String :=
  (course config env (Text.storedLines text)).map Prod.fst

/-- The verbosity has no part in which lines are run, as long as there is room to record. -/
theorem executed_withVerbosity (config : Config) (env : Env) {full level : Int}
    (hcovers : Covers full level) (text : String)
    (hroom : config.room = none ∨
      (run (config.withVerbosity full) text env).failure ≠ some (.evaluate .nesting)) :
    executed (config.withVerbosity level) text env =
      executed (config.withVerbosity full) text env := by
  rw [executed, executed, course_upTo config env hcovers text hroom, List.map_map]
  rfl

theorem trace_foldl_add (outcomes : List (Outcome Failure)) (progress : Progress) :
    (outcomes.foldl Progress.add progress).trace =
      progress.trace ++ outcomes.flatMap Outcome.trace := by
  induction outcomes generalizing progress with
  | nil => simp
  | cons outcome outcomes ih => simp [ih, Progress.add]

/-- Each run of a course tells its line, if anything is recorded. -/
theorem inputs_course {config : Config} (h : 0 < config.verbosity) (env : Env)
    (lines : List String) :
    ((course config env lines).map Prod.snd).flatMap (fun outcome => outcome.trace.inputs) =
      (course config env lines).map Prod.fst := by
  induction lines generalizing env with
  | nil => rfl
  | cons line lines ih =>
      by_cases hblank : Text.isBlankText line = true
      · rw [course_cons_of_blank hblank, ih]
      · have hline := Session.inputs_run h line env
        cases hfails : (Session.run config line env).failure? with
        | none => rw [course_cons_of_none hblank hfails]; simpa [hline] using ih _
        | some failure => rw [course_cons_of_some hblank hfails]; simp [hline]

/-- With a positive verbosity, the trace of a program tells the lines that are run. -/
theorem inputs_run {config : Config} (h : 0 < config.verbosity) (text : String) (env : Env) :
    (run config text env).trace.inputs = executed config text env := by
  rw [run, foldl_runLine config rfl, trace_foldl_add, List.nil_append, executed, ← inputs_course h,
    Trace.inputs, List.filterMap_flatMap]
  rfl

end Program

/-! ## What is said -/

namespace CommandLine

/-- What is said is told by the failure, if there is one. -/
theorem reportOn_eq (progress : Program.Progress) :
    (reportOn progress).output = progress.output ∧
      (progress.failure = none →
        (reportOn progress).ending = .exit 0 ∧ (reportOn progress).errors = "") ∧
      ∀ failure, progress.failure = some failure →
        (reportOn progress).ending = .ofFailure failure ∧
          (reportOn progress).errors = if failure.isTold then failure.report ++ "\n" else "" := by
  obtain ⟨env, output, trace, failure⟩ := progress
  cases failure with
  | none => exact ⟨rfl, fun _ => ⟨rfl, rfl⟩, nofun⟩
  | some failure =>
      refine ⟨rfl, nofun, ?_⟩
      rintro _ ⟨⟩
      exact ⟨rfl, rfl⟩

/-- What is said about the program of a text is told by what the program has done. -/
theorem runContent_toUTF8 (config : Config) (text : String) :
    runContent config text.toUTF8 = reportOn (Program.run config text .empty) := by
  have htext : String.fromUTF8? text.toUTF8 = some text := by
    rw [String.fromUTF8?, String.toUTF8_eq_toByteArray, dif_pos text.isValidUTF8]
    rfl
  rw [runContent, htext]

end CommandLine

end PrefixLogic
