import PrefixLogic.Proofs.Program.Course
import PrefixLogic.Proofs.Session.OneLine
import PrefixLogic.Proofs.Shell.Line
import PrefixLogic.Proofs.Text.LineEnds

/-!
# Programs one after the other

The lines of a program end as `Program.Ends` says: each line that is not blank has a value, up to
the first one that fails, after which nothing is run. That is what is written and reported about the
program, each value on a line of its own (`Program.run_eq_of_ends`). A failure is reported too,
unless it is that there is no room to write a value.

A text that ends with a newline is a program of its own. So with another text after it, a program
stops in the first one, or it does what the first does and then what the second does in the
environment after the first (`Program.report_run_append`).
-/

namespace PrefixLogic

open CommandLine (reportOn reportOn_eq)

namespace Program

/-- The lines, run in order up to the first one that fails, have these values; this is the failure,
if a line fails, and this is the environment after them. -/
inductive Ends (config : Config) : Env → List String → List Value → Option Failure → Env → Prop
  | nil (env : Env) : Ends config env [] [] none env
  | blank {env after : Env} {line : String} {lines : List String} {values : List Value}
      {failure? : Option Failure} : Text.isBlankText line = true →
      Ends config env lines values failure? after →
      Ends config env (line :: lines) values failure? after
  | value {env after : Env} {line : String} {lines : List String} {value : Value}
      {values : List Value} {failure? : Option Failure} : ¬Text.isBlankText line = true →
      (Session.run config line env).result = .ok value →
      Ends config (Session.run config line env).env lines values failure? after →
      Ends config env (line :: lines) (value :: values) failure? after
  | failure {env : Env} {line : String} {failure : Failure} (lines : List String) :
      ¬Text.isBlankText line = true → (Session.run config line env).result = .error failure →
      Ends config env (line :: lines) [] (some failure) (Session.run config line env).env

/-- Some line fails of those that are not blank. -/
def Fails (config : Config) (env : Env) (lines : List String) : Prop :=
  ∃ values failure after, Ends config env lines values (some failure) after

variable {config : Config} {env after : Env} {lines : List String} {values : List Value}
  {failure? : Option Failure}

/-! ## The end of the lines -/

theorem exists_ends (config : Config) (env : Env) (lines : List String) :
    ∃ values failure? after, Ends config env lines values failure? after := by
  induction lines generalizing env with
  | nil => exact ⟨_, _, _, .nil env⟩
  | cons line lines ih =>
      by_cases hblank : Text.isBlankText line = true
      · obtain ⟨values, failure?, after, hends⟩ := ih env
        exact ⟨values, failure?, after, .blank hblank hends⟩
      · cases hresult : (Session.run config line env).result with
        | error failure => exact ⟨_, _, _, .failure lines hblank hresult⟩
        | ok value =>
            obtain ⟨values, failure?, after, hends⟩ := ih (Session.run config line env).env
            exact ⟨value :: values, failure?, after, .value hblank hresult hends⟩

/-- What lines do is told by how they end, but for the trace. -/
theorem Ends.foldl_runLine (h : Ends config env lines values failure? after) (output : String)
    (trace : Trace) :
    ∃ trace', lines.foldl (runLine config) ⟨env, output, trace, none⟩ =
      ⟨after, output ++ Text.typed (values.map Value.text), trace', failure?⟩ := by
  -- for all that has been done before, since each value adds to it
  induction h generalizing output trace with
  | nil env => exact ⟨trace, by simp [Text.typed]⟩
  | blank hblank _ ih =>
      rw [List.foldl_cons, runLine_of_blank config _ hblank]
      exact ih output trace
  | @value env after line lines value values failure? hblank hresult _ ih =>
      obtain ⟨trace', hrest⟩ :=
        ih (output ++ (value.text ++ "\n")) (trace ++ (Session.run config line env).trace)
      refine ⟨trace', ?_⟩
      rw [List.foldl_cons, runLine_of_not_blank config rfl hblank, Progress.add,
        Outcome.failure?_of_ok hresult, Outcome.printed, hresult]
      dsimp only
      rw [hrest, List.map_cons, Text.typed, Text.typed, List.map_cons, String.join_cons,
        String.append_assoc]
  | @failure env line failure lines hblank hresult =>
      refine ⟨trace ++ (Session.run config line env).trace, ?_⟩
      have hfails := Outcome.failure?_of_error hresult
      rw [List.foldl_cons, runLine_of_not_blank config rfl hblank,
        foldl_runLine_of_failure config hfails, Progress.add, Outcome.printed_of_failure hfails,
        hfails]
      rfl

/-- What a program does is told by how its lines end, but for the trace. -/
theorem run_eq_of_ends {text : String}
    (h : Ends config env (Text.storedLines text) values failure? after) :
    let progress := run config text env
    progress.env = after ∧ progress.output = Text.typed (values.map Value.text) ∧
      progress.failure = failure? := by
  obtain ⟨trace, hrun⟩ := h.foldl_runLine "" []
  intro progress
  have hprogress : progress = _ := hrun
  rw [hprogress, String.empty_append]
  exact ⟨rfl, rfl, rfl⟩

theorem fails_iff {text : String} :
    Fails config env (Text.storedLines text) ↔ (run config text env).failure.isSome := by
  constructor
  · rintro ⟨values, failure, after, hends⟩
    rw [(run_eq_of_ends hends).2.2]
    rfl
  · intro hsome
    obtain ⟨values, failure?, after, hends⟩ := exists_ends config env (Text.storedLines text)
    rw [(run_eq_of_ends hends).2.2] at hsome
    obtain ⟨failure, rfl⟩ := Option.isSome_iff_exists.1 hsome
    exact ⟨values, failure, after, hends⟩

/-! ## What is said -/

/-- What is said about a program that has been run in a room and whose lines have these values, up
to the first one that fails. Each value is written on a line of its own. If no line fails, the exit
code is 0 and no error is told. If one fails, the exit code is 1 and its failure is told on one
line, but nothing is told of a value that there is no room to write, which ends the program at a
fault. -/
structure Progress.Tells (room : Room) (progress : Progress) (values : List Value) : Prop where
  output_eq : (reportOn progress).output = Text.typed (values.map Value.text)
  isLine : ∀ value ∈ values, Text.IsLine value.text
  of_none : progress.failure = none →
    (reportOn progress).ending = .exit 0 ∧ (reportOn progress).errors = ""
  of_told : ∀ failure, progress.failure = some failure → failure.isTold = true →
    (reportOn progress).ending = .exit 1 ∧
      (reportOn progress).errors = Text.typed [failure.report] ∧ Text.IsLine failure.report
  of_untold : ∀ failure, progress.failure = some failure → failure.isTold = false →
    (reportOn progress).ending = .fault (.untold failure) ∧ (reportOn progress).errors = "" ∧
      ∃ value : Value, failure = .write value ∧ value.write room = none

/-- In an environment of values from sources, each value and each report is one line, and a failure
that is not told is that there is no room to write a value. -/
theorem Ends.isLine (h : Ends config env lines values failure? after)
    (henv : env.Holds (Value.Readable none)) :
    after.Holds (Value.Readable none) ∧ (∀ value ∈ values, Text.IsLine value.text) ∧
      ∀ failure ∈ failure?, Text.IsLine failure.report ∧
        (failure.isTold = false →
          ∃ value : Value, failure = .write value ∧ value.write config.room = none) := by
  induction h with
  | nil env => exact ⟨henv, List.forall_mem_nil _, nofun⟩
  | blank _ _ ih => exact ih henv
  | @value env after line lines value values failure? _ hresult _ ih =>
      obtain ⟨-, -, -, hrun⟩ := Session.run_readable config line (fun _ _ => rfl) henv
      obtain ⟨hafter, hvalues, hfailure⟩ := ih hrun
      have hvalue := (Session.isLine_run config line henv).1 value hresult
      exact ⟨hafter, List.forall_mem_cons.2 ⟨hvalue, hvalues⟩, hfailure⟩
  | @failure env line failure lines _ hresult =>
      obtain ⟨-, -, -, hrun⟩ := Session.run_readable config line (fun _ _ => rfl) henv
      have hreport := (Session.isLine_run config line henv).2 failure hresult
      refine ⟨hrun, List.forall_mem_nil _, ?_⟩
      rintro _ ⟨⟩
      exact ⟨hreport, Session.exists_write_of_untold config line henv hresult⟩

theorem tells_run {text : String}
    (h : Ends config env (Text.storedLines text) values failure? after)
    (henv : env.Holds (Value.Readable none)) :
    (run config text env).Tells config.room values := by
  obtain ⟨-, hvalues, hreport⟩ := h.isLine henv
  obtain ⟨-, houtput, rfl⟩ := run_eq_of_ends h
  obtain ⟨hwritten, hnone, hsome⟩ := reportOn_eq (run config text env)
  refine ⟨hwritten.trans houtput, hvalues, hnone, ?told, ?untold⟩
  case told =>
    intro failure hfailure htold
    obtain ⟨hending, herrors⟩ := hsome failure hfailure
    rw [hending, herrors, CommandLine.Ending.ofFailure, if_pos htold, if_pos htold]
    exact ⟨rfl, by simp [Text.typed], (hreport failure hfailure).1⟩
  case untold =>
    intro failure hfailure huntold
    obtain ⟨hending, herrors⟩ := hsome failure hfailure
    have hnot : ¬failure.isTold = true := by simp [huntold]
    rw [hending, herrors, CommandLine.Ending.ofFailure, if_neg hnot, if_neg hnot]
    exact ⟨rfl, rfl, (hreport failure hfailure).2 huntold⟩

theorem ending_run_iff {text : String} :
    (reportOn (run config text env)).ending = .exit 0 ↔
      ¬Fails config env (Text.storedLines text) := by
  obtain ⟨-, hnone, hsome⟩ := reportOn_eq (run config text env)
  rw [fails_iff]
  cases hfailure : (run config text env).failure with
  | none => simp [(hnone hfailure).1]
  | some failure =>
      rw [(hsome failure hfailure).1, CommandLine.Ending.ofFailure]
      cases failure.isTold <;> simp

/-! ## Two programs -/

/-- More lines are run after lines of which none fails. -/
theorem Ends.course_append (h : Ends config env lines values failure? after) (more : List String) :
    course config env (lines ++ more) =
      course config env lines ++ if failure?.isSome then [] else course config after more := by
  induction h with
  | nil env => rfl
  | blank hblank _ ih =>
      rw [List.cons_append, course_cons_of_blank hblank, ih, course_cons_of_blank hblank]
  | value hblank hresult _ ih =>
      have hpasses := Outcome.failure?_of_ok hresult
      rw [List.cons_append, course_cons_of_none hblank hpasses, ih,
        course_cons_of_none hblank hpasses, List.cons_append]
  | failure lines hblank hresult =>
      have hfails := Outcome.failure?_of_error hresult
      rw [List.cons_append, course_cons_of_some hblank hfails, course_cons_of_some hblank hfails]
      rfl

/-- What has been done by one program and then by another. -/
def Progress.followedBy (first second : Progress) : Progress :=
  ⟨second.env, first.output ++ second.output, first.trace ++ second.trace, second.failure⟩

/-- The failure is that of the second one. -/
theorem reportOn_followedBy (first second : Progress) :
    (reportOn (first.followedBy second)).errors = (reportOn second).errors ∧
      (reportOn (first.followedBy second)).ending = (reportOn second).ending := by
  obtain ⟨env, output, trace, failure⟩ := second
  cases failure <;> exact ⟨rfl, rfl⟩

theorem foldl_add_followedBy (outcomes : List (Outcome Failure)) (first second : Progress) :
    outcomes.foldl Progress.add (first.followedBy second) =
      first.followedBy (outcomes.foldl Progress.add second) := by
  induction outcomes generalizing second with
  | nil => rfl
  | cons outcome outcomes ih =>
      have hadd : (first.followedBy second).add outcome =
          first.followedBy (second.add outcome) := by
        simp [Progress.followedBy, Progress.add, String.append_assoc]
      rw [List.foldl_cons, hadd, ih, List.foldl_cons]

theorem foldl_add_of_no_failure {progress : Progress} (h : progress.failure = none)
    (outcomes : List (Outcome Failure)) :
    outcomes.foldl Progress.add progress =
      progress.followedBy (outcomes.foldl Progress.add ⟨progress.env, "", [], none⟩) := by
  have hself : progress.followedBy ⟨progress.env, "", [], none⟩ = progress := by
    rw [Progress.followedBy, ← h, String.append_empty, List.append_nil]
  rw [← foldl_add_followedBy, hself]

/-- A program does what the runs of its lines do. -/
theorem run_eq_foldl_add (config : Config) (text : String) (env : Env) :
    run config text env =
      ((course config env (Text.storedLines text)).map Prod.snd).foldl Progress.add
        ⟨env, "", [], none⟩ :=
  foldl_runLine config rfl _

section

variable (config env) {front : String} (hfront : front = "" ∨ front.toList.getLast? = some '\n')
  (back : String)

include hfront

/-- Nothing of a second program is run if the first one fails. -/
theorem run_append_of_failure (h : (run config front env).failure.isSome = true) :
    run config (front ++ back) env = run config front env ∧
      executed config (front ++ back) env = executed config front env := by
  obtain ⟨values, failure?, after, hends⟩ := exists_ends config env (Text.storedLines front)
  rw [(run_eq_of_ends hends).2.2] at h
  have hcourse : course config env (Text.storedLines (front ++ back)) =
      course config env (Text.storedLines front) := by
    rw [Text.storedLines_append hfront, hends.course_append, if_pos h, List.append_nil]
  rw [run_eq_foldl_add, run_eq_foldl_add, executed, executed, hcourse]
  exact ⟨rfl, rfl⟩

/-- A second program goes on in the environment after the first one, if that one does not fail. -/
theorem run_append_of_no_failure (h : (run config front env).failure = none) :
    run config (front ++ back) env =
        (run config front env).followedBy (run config back (run config front env).env) ∧
      executed config (front ++ back) env =
        executed config front env ++ executed config back (run config front env).env := by
  obtain ⟨values, failure?, after, hends⟩ := exists_ends config env (Text.storedLines front)
  obtain ⟨henv, -, hfailure⟩ := run_eq_of_ends hends
  obtain rfl : failure? = none := hfailure.symm.trans h
  have hcourse : course config env (Text.storedLines (front ++ back)) =
      course config env (Text.storedLines front) ++
        course config (run config front env).env (Text.storedLines back) := by
    rw [Text.storedLines_append hfront, hends.course_append, henv]
    rfl
  refine ⟨?_, by rw [executed, executed, executed, hcourse, List.map_append]⟩
  rw [run_eq_foldl_add config (front ++ back), hcourse, List.map_append, List.foldl_append,
    ← run_eq_foldl_add, foldl_add_of_no_failure h, ← run_eq_foldl_add]

end

/-- A program with another one after it stops with the first failure. If a line of the first program
fails, nothing of the second one is run, and all is as after the first one. If none fails, the
second one goes on in the environment after the first, and ends as it does by itself there. And of
any program, the exit code tells whether a line fails, the output is a line for each value before
that, and the failure is reported on one line; but if a value is lost because there is no room to
write it, then there is no exit code and no report. -/
theorem report_run_append (config : Config) {front : String}
    (hfront : front = "" ∨ front.toList.getLast? = some '\n') (back : String) {room : Room}
    {env : Env} (henv : env.Holds (Value.FromSource room)) :
    let first := run config front env
    let second := run config back first.env
    let whole := run config (front ++ back) env
    (Fails config env (Text.storedLines front) →
      whole = first ∧ (reportOn whole).ending ≠ .exit 0 ∧
        executed config (front ++ back) env = executed config front env) ∧
    (¬Fails config env (Text.storedLines front) →
      whole.output = first.output ++ second.output ∧
        (reportOn whole).errors = (reportOn second).errors ∧
        (reportOn whole).ending = (reportOn second).ending ∧ whole.env = second.env ∧
        executed config (front ++ back) env =
          executed config front env ++ executed config back first.env) ∧
    ∀ text,
      let progress := run config text env
      CommandLine.runContent config text.toUTF8 = reportOn (run config text .empty) ∧
        ((reportOn progress).ending = .exit 0 ↔ ¬Fails config env (Text.storedLines text)) ∧
        ∃ values, Ends config env (Text.storedLines text) values progress.failure progress.env ∧
          progress.Tells config.room values := by
  intro first second whole
  refine ⟨?_, ?_, ?_⟩
  · intro hfails
    obtain ⟨hsame, hexecuted⟩ :=
      run_append_of_failure config env hfront back (fails_iff.1 hfails)
    have hwhole : whole = first := hsame
    rw [hwhole]
    exact ⟨rfl, mt ending_run_iff.1 (not_not_intro hfails), hexecuted⟩
  · intro hpasses
    have hnone : first.failure = none := Option.not_isSome_iff_eq_none.1 (mt fails_iff.2 hpasses)
    obtain ⟨hboth, hexecuted⟩ := run_append_of_no_failure config env hfront back hnone
    have hwhole : whole = first.followedBy second := hboth
    rw [hwhole]
    obtain ⟨herrors, hending⟩ := reportOn_followedBy first second
    exact ⟨rfl, herrors, hending, rfl, hexecuted⟩
  · intro text progress
    obtain ⟨values, failure?, after, hends⟩ := exists_ends config env (Text.storedLines text)
    have htells := tells_run hends henv.readable
    obtain ⟨rfl, -, rfl⟩ := run_eq_of_ends hends
    exact ⟨CommandLine.runContent_toUTF8 config text, ending_run_iff, values, hends, htells⟩

/-- The second program uses what the first one has defined, and fails; in the other order, nothing
is run after the failure. -/
theorem report_run_append_failing :
    let front := "(def x T)\n\n(^ x)\n"
    let back := "x\n(x)\nT\n"
    let first := run {} front .empty
    let whole := run {} (front ++ back) .empty
    whole.output = first.output ++ "T\n" ∧ first.output = "T\nF\n" ∧
      (reportOn whole).errors = (reportOn (run {} back first.env)).errors ∧
      (reportOn whole).errors = "Failed to evaluate: `T` is not an operator\n" ∧
      run {} (back ++ front) .empty = run {} back .empty ∧
      executed {} (back ++ front) .empty = ["x"] := by
  intro front back first whole
  have hpasses : ¬Fails {} .empty (Text.storedLines front) := by
    rw [fails_iff]
    decide +kernel
  have hfails : Fails {} .empty (Text.storedLines back) := by
    rw [fails_iff]
    decide +kernel
  have hfront : front = "" ∨ front.toList.getLast? = some '\n' := .inr (by decide +kernel)
  have hback : back = "" ∨ back.toList.getLast? = some '\n' := .inr (by decide +kernel)
  obtain ⟨-, hsecond, -⟩ := @report_run_append {} front hfront back none .empty Env.holds_empty
  obtain ⟨houtput, herrors, -⟩ := hsecond hpasses
  obtain ⟨hfirst, -⟩ := @report_run_append {} back hback front none .empty Env.holds_empty
  obtain ⟨hsame, -, hexecuted⟩ := hfirst hfails
  have hadded : (run {} back first.env).output = "T\n" := by decide +kernel
  rw [hadded] at houtput
  refine ⟨houtput, by decide +kernel, herrors, by decide +kernel, hsame, ?_⟩
  rw [hexecuted]
  decide +kernel

/-- A program with a line in which a lambda with a tall body is found fails without an exit code and
without a word. -/
theorem report_run_append_tall :
    let text := Session.tall.text ++ "\n"
    Fails {} .empty (Text.storedLines text) ∧
      (CommandLine.runContent {} text.toUTF8).ending ≠ .exit 1 ∧
      (CommandLine.runContent {} text.toUTF8).errors = "" := by
  intro text
  obtain ⟨rest, hrest⟩ := Session.exists_toList_text_tall
  obtain ⟨-, hblank⟩ := Shell.Line.holdsSource_of_openParen hrest
  obtain ⟨hresult, -⟩ := Session.run_tall {} rfl (by decide) (by decide) (by decide) (by decide)
    .empty
  have hline : Text.storedLines text = [Session.tall.text] :=
    Text.storedLines_line (@Session.readable_tall none rfl).isLine_text
  have hends : Ends {} .empty (Text.storedLines text) [] (some (.write Session.tall))
      (Session.run {} Session.tall.text .empty).env := by
    rw [hline]
    exact .failure [] hblank hresult
  obtain ⟨-, -, hfailure⟩ := run_eq_of_ends hends
  obtain ⟨-, -, hsome⟩ := reportOn_eq (run {} text .empty)
  obtain ⟨hending, herrors⟩ := hsome _ hfailure
  rw [CommandLine.runContent_toUTF8, hending, herrors]
  exact ⟨⟨_, _, _, hends⟩, nofun, rfl⟩

end Program

end PrefixLogic
