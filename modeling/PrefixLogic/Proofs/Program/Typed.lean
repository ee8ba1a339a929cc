import PrefixLogic.Proofs.Program.Course
import PrefixLogic.Proofs.Session.OneLine
import PrefixLogic.Proofs.Shell.Course
import PrefixLogic.Proofs.Text.Lines

/-!
# Programs that are typed

A program is stored with newlines between its lines, or typed into the shell line by line. If its
lines hold sources and neither commands nor words that end the shell, both do the same up to the
first line that fails (`Shell.runContent_stored`): the program writes the answers of the shell, and
the environments are the same. The failure that ends the program is what the shell answers to that
line.

A line that is typed is trimmed before it is run, and one that is stored is not. That does not
matter to what it does (`Session.run_trim`). The shell has a little less room than a program, which
makes no difference as long as no line fails for lack of room (`Program.run_of_isWithin`).
-/

namespace PrefixLogic

/-- The program of stored lines runs them, one after the other. -/
theorem Program.run_stored (config : Config) (env : Env) {lines : List String}
    (hlines : ∀ line ∈ lines, Text.IsLine line) :
    run config (Text.stored lines) env = lines.foldl (runLine config) ⟨env, "", [], none⟩ := by
  obtain ⟨unseen, heq, hunseen⟩ := Text.exists_storedLines_stored hlines
  have hblank : ∀ line ∈ unseen, Text.isBlankText line = true := by
    intro line hmem
    rw [hunseen line hmem]
    rfl
  conv_rhs => rw [heq]
  rw [run, List.foldl_append, foldl_runLine_of_blank config _ hblank]

namespace Shell

/-! ## Lines that hold sources -/

/-- The failure of the source that a line holds, if it holds one that fails. -/
def failure? (config : Config) (env : Env) (line : String) : Option Failure :=
  (Line.ofString line).source?.bind fun source => (Session.run config source env).failure?

section

variable {line : String} (config : Config) (env : Env)

/-- Nothing is done about a blank line. -/
theorem reply_of_blank (h : Line.HoldsSource line) (hblank : Text.isBlankText line = true) :
    reply config env line = ⟨"", env, [], false, none⟩ ∧ failure? config env line = none := by
  have htext := (Token.trim_eq_empty_iff line).2 hblank
  rw [reply, failure?, Line.ofString_of_holdsSource h, htext]
  exact ⟨rfl, rfl⟩

/-- A source without a failure is answered with its value, and one with a failure that is told with
the report of it. -/
theorem answer_of_failure? (outcome : Outcome Failure) :
    (outcome.failure? = none →
      (answer outcome).output = outcome.printed ∧ (answer outcome).fault = none) ∧
    ∀ failure, outcome.failure? = some failure → failure.isTold = true →
      (answer outcome).output = failure.report ++ "\n" ∧ (answer outcome).fault = none := by
  obtain ⟨result, env, trace⟩ := outcome
  cases result with
  | ok value => exact ⟨fun _ => ⟨rfl, rfl⟩, nofun⟩
  | error failure =>
      refine ⟨nofun, ?_⟩
      rintro _ ⟨⟩ htold
      rw [answer]
      dsimp only
      rw [if_pos htold]
      exact ⟨rfl, rfl⟩

/-- The answer to a line that holds a source is that to a run of the line itself. -/
theorem reply_of_not_blank (h : Line.HoldsSource line) (hblank : ¬Text.isBlankText line = true) :
    let outcome := Session.run config line env
    (reply config env line).env = outcome.env ∧
      failure? config env line = outcome.failure? ∧
      (outcome.failure? = none →
        (reply config env line).output = outcome.printed ∧
          (reply config env line).fault = none) ∧
      ∀ failure, outcome.failure? = some failure → failure.isTold = true →
        (reply config env line).output = failure.report ++ "\n" ∧
          (reply config env line).fault = none := by
  intro outcome
  have hsource := Line.source?_of_holdsSource h hblank
  obtain ⟨hresult, henv⟩ := Session.run_trim config line env
  have hfailure : (Session.run config (Text.trim line) env).failure? = outcome.failure? := by
    rw [Outcome.failure?, hresult]
    rfl
  have hprinted : (Session.run config (Text.trim line) env).printed = outcome.printed := by
    rw [Outcome.printed, hresult]
    rfl
  have hreply := reply_of_source? config env hsource
  have hsame : failure? config env line = outcome.failure? := by
    rw [failure?, hsource, Option.bind_some, hfailure]
  obtain ⟨hnone, hsome⟩ := answer_of_failure? (Session.run config (Text.trim line) env)
  rw [← hreply, hfailure, hprinted] at hnone
  rw [← hreply, hfailure] at hsome
  refine ⟨?_, hsame, hnone, hsome⟩
  rw [hreply]
  exact (answer_spec _).1.trans henv

end

/-- Lines, each with the answer of the shell to it. -/
def answers (config : Config) : Env → List String → List (String × String)
  | _, [] => []
  | env, line :: lines =>
    (line, (reply config env line).output) :: answers config (envAfter config env [line]) lines

/-- No line fails. -/
def Passes (config : Config) : Env → List String → Prop
  | _, [] => True
  | env, line :: lines =>
    failure? config env line = none ∧ Passes config (envAfter config env [line]) lines

instance decidablePasses (config : Config) :
    (env : Env) → (lines : List String) → Decidable (Passes config env lines)
  | _, [] => .isTrue trivial
  | env, line :: lines =>
    have := decidablePasses config (envAfter config env [line]) lines
    inferInstanceAs (Decidable (failure? config env line = none ∧
      Passes config (envAfter config env [line]) lines))

theorem exchanges_eq (config : Config) (env : Env) (lines : List String) :
    exchanges config env lines =
      (answers config env lines).map fun answer => prompt ++ answer.2 := by
  induction lines generalizing env with
  | nil => rfl
  | cons line lines ih => rw [exchanges, answers, ih, List.map_cons]

/-- If a line fails, there is a first one that does. -/
theorem passes_or_fails (config : Config) (env : Env) (lines : List String) :
    Passes config env lines ∨
      ∃ done line rest failure, lines = done ++ line :: rest ∧ Passes config env done ∧
        failure? config (envAfter config env done) line = some failure := by
  induction lines generalizing env with
  | nil => exact .inl trivial
  | cons line lines ih =>
      cases hfails : failure? config env line with
      | some failure => exact .inr ⟨[], line, lines, failure, rfl, trivial, hfails⟩
      | none =>
          rcases ih (envAfter config env [line]) with hpasses | hrest
          · exact .inl ⟨hfails, hpasses⟩
          · obtain ⟨done, next, rest, failure, rfl, hdone, hnext⟩ := hrest
            rw [← envAfter_cons] at hnext
            exact .inr ⟨line :: done, next, rest, failure, rfl, ⟨hfails, hdone⟩, hnext⟩

/-- In a session of values that read back, a failure is told unless there is too little room. -/
theorem isTold_of_failure? {config : Config} {env : Env} (henv : env.Holds (Value.Readable none))
    {line : String} {failure : Failure} (h : failure? config env line = some failure)
    (hroom : ¬failure.LacksRoom) : failure.isTold = true := by
  obtain ⟨source, -, hfails⟩ := Option.bind_eq_some_iff.1 h
  rw [← Bool.not_eq_false]
  intro huntold
  obtain ⟨value, rfl, -⟩ := Session.exists_write_of_untold config source henv
    (Outcome.result_of_failure? hfails) huntold
  exact hroom (.inr (.inr ⟨value, rfl⟩))

/-- Lines of which none fails do not break the shell. -/
theorem unbroken_of_passes {config : Config} {env : Env} {lines : List String}
    (hlines : ∀ line ∈ lines, Line.HoldsSource line) (h : Passes config env lines) :
    Unbroken config env lines := by
  induction lines generalizing env with
  | nil => trivial
  | cons line lines ih =>
      rw [List.forall_mem_cons] at hlines
      refine ⟨?_, ih hlines.2 h.2⟩
      by_cases hblank : Text.isBlankText line = true
      · rw [(reply_of_blank config env hlines.1 hblank).1]
      · obtain ⟨-, hsame, hnone, -⟩ := reply_of_not_blank config env hlines.1 hblank
        exact (hnone (hsame.symm.trans h.1)).2

/-! ## Typed lines -/

/-- The shell answers lines that are typed, if they do not break it, and then leaves at the end of
the input. -/
theorem run_typed (config : Config) (env : Env) {lines : List String}
    (hlines : ∀ line ∈ lines, Text.IsLine line ∧ Line.HoldsSource line)
    (hunbroken : Unbroken config env lines) :
    (run config (Text.typed lines) env).env = envAfter config env lines ∧
      (run config (Text.typed lines) env).output =
        String.join ((answers config env lines).map fun answer => prompt ++ answer.2) ++
          (prompt ++ "\n") := by
  have htyped : inputLines (Text.typed lines) = lines ++ [Line.endWord] := by
    rw [inputLines, Text.typedLines_typed]
    intro line hmem hnewline
    exact absurd ((hlines line hmem).1 '\n' hnewline) (by decide)
  have hgoes : ∀ line ∈ lines, ¬(Line.ofString line).Ends := fun line hmem =>
    Line.not_ends_of_holdsSource (hlines line hmem).2
  have hrequest : (Line.ofString Line.endWord).request = .farewell := by decide +kernel
  have hends : (Line.ofString Line.endWord).Ends := by decide +kernel
  obtain ⟨hended, hafter, hanswered⟩ := foldl_feed_start config hgoes hunbroken
  obtain ⟨hsame, -, -, hwritten⟩ := feed_spec config hended Line.endWord
  rw [envAfter_of_ends config _ hends, hafter] at hsame
  rw [hanswered, reply, hrequest, exchanges_eq] at hwritten
  rw [run, htyped, List.foldl_append]
  -- what is left is the line that stands for the end of the input
  exact ⟨hsame, hwritten⟩

/-- Nothing is answered to blank lines. -/
theorem join_answers_filter (config : Config) (env : Env) {lines : List String}
    (hlines : ∀ line ∈ lines, Line.HoldsSource line) :
    String.join (((answers config env lines).filter fun answer =>
        !Text.isBlankText answer.1).map Prod.snd) =
      String.join ((answers config env lines).map Prod.snd) := by
  induction lines generalizing env with
  | nil => rfl
  | cons line lines ih =>
      rw [List.forall_mem_cons] at hlines
      have hrest := ih (envAfter config env [line]) hlines.2
      by_cases hblank : Text.isBlankText line = true
      · obtain ⟨hreply, -⟩ := reply_of_blank config env hlines.1 hblank
        rw [answers, List.filter_cons_of_neg (by simp [hblank]), hrest, hreply, List.map_cons,
          String.join_cons, String.empty_append]
      · rw [answers, List.filter_cons_of_pos (by simp [hblank]), List.map_cons, String.join_cons,
          hrest, List.map_cons, String.join_cons]

/-! ## Stored lines -/

section

variable {config : Config} {progress : Program.Progress} {line : String}

/-- A line that does not fail does to a program what it does to the shell. -/
theorem runLine_of_none (hfailure : progress.failure = none) (h : Line.HoldsSource line)
    (hfails : failure? config progress.env line = none) :
    (Program.runLine config progress line).failure = none ∧
      (Program.runLine config progress line).env = envAfter config progress.env [line] ∧
      (Program.runLine config progress line).output =
        progress.output ++ (reply config progress.env line).output := by
  rw [← (reply_spec config progress.env line).1]
  by_cases hblank : Text.isBlankText line = true
  · obtain ⟨hreply, -⟩ := reply_of_blank config progress.env h hblank
    rw [Program.runLine_of_blank config progress hblank, hreply]
    exact ⟨hfailure, rfl, String.append_empty.symm⟩
  · obtain ⟨henv, hsame, hanswer, -⟩ := reply_of_not_blank config progress.env h hblank
    have hnone := hsame.symm.trans hfails
    rw [Program.runLine_of_not_blank config hfailure hblank, henv, (hanswer hnone).1]
    exact ⟨hnone, rfl, rfl⟩

/-- A line that fails ends a program with what the shell answers, if the failure is told. -/
theorem runLine_of_some (hfailure : progress.failure = none) (h : Line.HoldsSource line)
    {failure : Failure} (hfails : failure? config progress.env line = some failure)
    (htold : failure.isTold = true) :
    (Program.runLine config progress line).failure = some failure ∧
      (Program.runLine config progress line).env = envAfter config progress.env [line] ∧
      (Program.runLine config progress line).output = progress.output ∧
      (reply config progress.env line).output = failure.report ++ "\n" ∧
      (reply config progress.env line).fault = none := by
  rw [← (reply_spec config progress.env line).1]
  -- no blank line fails
  have hblank : ¬Text.isBlankText line = true := by
    intro hblank
    obtain ⟨-, hnone⟩ := reply_of_blank config progress.env h hblank
    cases hnone.symm.trans hfails
  obtain ⟨henv, hsame, -, hanswer⟩ := reply_of_not_blank config progress.env h hblank
  have hsome := hsame.symm.trans hfails
  rw [Program.runLine_of_not_blank config hfailure hblank, henv]
  refine ⟨hsome, rfl, ?_, hanswer failure hsome htold⟩
  rw [Program.Progress.add, Outcome.printed_of_failure hsome, String.append_empty]

/-- Lines of which none fails do to a program what they do to the shell. -/
theorem foldl_runLine_of_passes {lines : List String}
    (hlines : ∀ line ∈ lines, Line.HoldsSource line) (hfailure : progress.failure = none)
    (hpasses : Passes config progress.env lines) :
    (lines.foldl (Program.runLine config) progress).failure = none ∧
      (lines.foldl (Program.runLine config) progress).env = envAfter config progress.env lines ∧
      (lines.foldl (Program.runLine config) progress).output =
        progress.output ++ String.join ((answers config progress.env lines).map Prod.snd) := by
  induction lines generalizing progress with
  | nil => exact ⟨hfailure, rfl, String.append_empty.symm⟩
  | cons line lines ih =>
      rw [List.forall_mem_cons] at hlines
      obtain ⟨hnone, henv, houtput⟩ := runLine_of_none hfailure hlines.1 hpasses.1
      -- the lines that are left begin in the environment that this one leaves
      obtain ⟨hended, hafter, hwritten⟩ := ih hlines.2 hnone (henv ▸ hpasses.2)
      refine ⟨hended, ?_, ?_⟩
      · rw [List.foldl_cons, hafter, henv, ← envAfter_cons]
      · rw [List.foldl_cons, hwritten, henv, houtput, answers, List.map_cons, String.join_cons,
          String.append_assoc]

end

/-- The program of stored lines of which none fails. -/
theorem run_stored_of_passes {config : Config} {env : Env} {lines : List String}
    (hlines : ∀ line ∈ lines, Text.IsLine line ∧ Line.HoldsSource line)
    (hpasses : Passes config env lines) :
    let program := Program.run config (Text.stored lines) env
    program.failure = none ∧ program.env = envAfter config env lines ∧
      program.output = String.join ((answers config env lines).map Prod.snd) := by
  intro program
  have hprogram : program = _ :=
    Program.run_stored config env fun line hmem => (hlines line hmem).1
  obtain ⟨hnone, henv, houtput⟩ := foldl_runLine_of_passes (fun line hmem => (hlines line hmem).2)
    (rfl : (Program.Progress.mk env "" [] none).failure = none) hpasses
  rw [String.empty_append] at houtput
  rw [hprogram]
  exact ⟨hnone, henv, houtput⟩

/-- The first line that fails ends the program of stored lines. -/
theorem run_stored_of_fails {config : Config} {env : Env} {done rest : List String} {line : String}
    (hlines : ∀ other ∈ done ++ line :: rest, Text.IsLine other ∧ Line.HoldsSource other)
    (hdone : Passes config env done) {failure : Failure}
    (hfails : failure? config (envAfter config env done) line = some failure)
    (htold : failure.isTold = true) :
    let program := Program.run config (Text.stored (done ++ line :: rest)) env
    program.failure = some failure ∧
      program.env = envAfter config env (done ++ [line]) ∧
      program.output = String.join ((answers config env done).map Prod.snd) ∧
      (reply config (envAfter config env done) line).output = failure.report ++ "\n" ∧
      (reply config (envAfter config env done) line).fault = none := by
  intro program
  have hsources : ∀ other ∈ done ++ line :: rest, Line.HoldsSource other := fun other hmem =>
    (hlines other hmem).2
  rw [List.forall_mem_append, List.forall_mem_cons] at hsources
  obtain ⟨hnone, hbefore, hwritten⟩ :=
    foldl_runLine_of_passes hsources.1 (rfl : (Program.Progress.mk env "" [] none).failure = none)
      hdone
  rw [String.empty_append] at hwritten
  obtain ⟨hsome, hafter, houtput, hreport⟩ :=
    runLine_of_some hnone hsources.2.1 (hbefore.symm ▸ hfails) htold
  -- the lines after the one that fails are not run
  have hprogram : program = Program.runLine config
      (done.foldl (Program.runLine config) ⟨env, "", [], none⟩) line := by
    refine (Program.run_stored config env fun other hmem => (hlines other hmem).1).trans ?_
    rw [List.foldl_append, List.foldl_cons, Program.foldl_runLine_of_failure config hsome]
  rw [hbefore] at hafter hreport
  refine ⟨hprogram ▸ hsome, ?_, ?_, hreport⟩
  · rw [hprogram, hafter, envAfter_append]
  · rw [hprogram, houtput, hwritten]

/-- A program of stored lines and a shell into which they are typed do the same up to the first line
that fails, if it does not fail in the shell for lack of room. The shell answers all lines that do
not break it, with a prompt before each answer, and ends with one more prompt and a newline. -/
theorem runContent_stored (config : Config) {lines : List String}
    (hlines : ∀ line ∈ lines, Text.IsLine line ∧ Line.HoldsSource line) :
    let typing := CommandLine.inShell config
    let report := CommandLine.runContent config (Text.stored lines).toUTF8
    let program := Program.run config (Text.stored lines) .empty
    let shell (lines : List String) := run typing (Text.typed lines) .empty
    (Unbroken typing .empty lines → (shell lines).output =
        String.join ((answers typing .empty lines).map fun answer => prompt ++ answer.2) ++
          (prompt ++ "\n")) ∧
      (Passes typing .empty lines → Unbroken typing .empty lines ∧
        report.ending = .exit 0 ∧ report.errors = "" ∧
          report.output = String.join ((answers typing .empty lines).map Prod.snd) ∧
          program.env = (shell lines).env) ∧
      (∀ done line rest failure, lines = done ++ line :: rest → Passes typing .empty done →
        failure? typing (shell done).env line = some failure → ¬failure.LacksRoom →
        Unbroken typing .empty (done ++ [line]) ∧ report.ending = .exit 1 ∧
          report.errors = failure.report ++ "\n" ∧
          report.errors = (reply typing (shell done).env line).output ∧
          report.output = String.join (((answers typing .empty done).filter fun answer =>
            !Text.isBlankText answer.1).map Prod.snd) ∧
          program.env = (shell (done ++ [line])).env) ∧
      (Passes typing .empty lines ∨
        ∃ done line rest failure, lines = done ++ line :: rest ∧ Passes typing .empty done ∧
          failure? typing (shell done).env line = some failure) := by
  intro typing report program shell
  have hreport : report = CommandLine.reportOn program :=
    CommandLine.runContent_toUTF8 config (Text.stored lines)
  obtain ⟨hwritten, hquiet, hloud⟩ := CommandLine.reportOn_eq program
  have hsources : ∀ line ∈ lines, Line.HoldsSource line := fun line hmem => (hlines line hmem).2
  -- the lines up to any of them can be typed as well
  have hshell : ∀ done rest, lines = done ++ rest → Unbroken typing .empty done →
      (shell done).env = envAfter typing .empty done := by
    rintro done rest rfl hunbroken
    exact (run_typed typing .empty (fun line hmem => hlines line (List.mem_append_left rest hmem))
      hunbroken).1
  -- a program has more room than the shell
  have hroomier (h : ∀ failure,
      (Program.run typing (Text.stored lines) .empty).failure = some failure →
        ¬failure.LacksRoom) : program = Program.run typing (Text.stored lines) .empty :=
    Program.run_of_isWithin (config.room.less_isWithin 3) h
  refine ⟨fun hunbroken => (run_typed typing .empty hlines hunbroken).2, ?_, ?_, ?_⟩
  · intro hpasses
    have hunbroken := unbroken_of_passes hsources hpasses
    obtain ⟨hnone, henv, houtput⟩ := run_stored_of_passes hlines hpasses
    have hsame := hroomier (by rw [hnone]; exact nofun)
    rw [← hsame] at hnone henv houtput
    obtain ⟨hending, herrors⟩ := hquiet hnone
    rw [hreport, hshell lines [] (List.append_nil lines).symm hunbroken]
    exact ⟨hunbroken, hending, herrors, hwritten.trans houtput, henv⟩
  · rintro done line rest failure rfl hdone hfails hroom
    rw [List.forall_mem_append] at hsources
    have hunbroken := unbroken_of_passes hsources.1 hdone
    rw [hshell done _ rfl hunbroken] at hfails ⊢
    have htold := isTold_of_failure? (envAfter_readable typing Env.holds_empty done) hfails hroom
    obtain ⟨hsome, henv, houtput, hanswer, hfault⟩ :=
      run_stored_of_fails hlines hdone hfails htold
    have hsame := hroomier (by rw [hsome]; rintro _ ⟨⟩; exact hroom)
    rw [← hsame] at hsome henv houtput
    obtain ⟨hending, herrors⟩ := hloud failure hsome
    have hlast := unbroken_append_singleton typing hunbroken hfault
    rw [hreport, hshell (done ++ [line]) rest (by simp) hlast, hanswer, hending, herrors,
      CommandLine.Ending.ofFailure, if_pos htold, if_pos htold]
    refine ⟨hlast, rfl, rfl, rfl, ?_, henv⟩
    rw [hwritten, houtput, join_answers_filter typing .empty hsources.1]
  · rcases passes_or_fails typing .empty lines with hpasses | hfails
    · exact .inl hpasses
    · obtain ⟨done, line, rest, failure, hlines', hdone, hline⟩ := hfails
      have hunbroken : Unbroken typing .empty done := unbroken_of_passes
        (fun other hmem => hsources other (hlines' ▸ List.mem_append_left _ hmem)) hdone
      rw [← hshell done _ hlines' hunbroken] at hline
      exact .inr ⟨done, line, rest, failure, hlines', hdone, hline⟩

/-- The third line binds a name before it fails, and the last one is not run. -/
theorem runContent_stored_failing :
    let lines := ["(def f T)", " ", "\t(& (def a f) z) ", "f"]
    let report := CommandLine.runContent {} (Text.stored lines).toUTF8
    (∀ line ∈ lines, Text.IsLine line ∧ Line.HoldsSource line) ∧
      report.ending = .exit 1 ∧ report.output = "T\n" ∧
      report.errors = "Failed to evaluate: `z` is not defined\n" ∧
      (Program.run {} (Text.stored lines) .empty).env.names = ["f", "a"] := by
  intro lines report
  have hdefinition : Text.IsLine "(def f T)" ∧ Line.HoldsSource "(def f T)" := by decide +kernel
  have hblank : Text.IsLine " " ∧ Line.HoldsSource " " := by decide +kernel
  have hcall : Text.IsLine "\t(& (def a f) z) " ∧ Line.HoldsSource "\t(& (def a f) z) " := by
    decide +kernel
  have hname : Text.IsLine "f" ∧ Line.HoldsSource "f" := by decide +kernel
  have hlines : ∀ line ∈ lines, Text.IsLine line ∧ Line.HoldsSource line := by
    simp only [lines, List.forall_mem_cons]
    exact ⟨hdefinition, hblank, hcall, hname, List.forall_mem_nil _⟩
  have hroom : ¬(Failure.evaluate (.notDefined "z")).LacksRoom := by
    rintro (hdeep | hnesting | ⟨value, hwrite⟩)
    · cases hdeep
    · cases hnesting
    · cases hwrite
  obtain ⟨-, -, hfails, -⟩ := runContent_stored {} hlines
  obtain ⟨-, hending, herrors, -, houtput, henv⟩ := hfails ["(def f T)", " "]
    "\t(& (def a f) z) " ["f"] (.evaluate (.notDefined "z")) rfl (by decide +kernel)
    (by decide +kernel) hroom
  refine ⟨hlines, hending, houtput.trans (by decide +kernel), herrors.trans (by decide +kernel),
    ?_⟩
  rw [henv]
  decide +kernel

/-- Nothing is written to the errors of a program about a value that is lost. -/
theorem errors_of_write {config : Config} {line : String} (hline : Text.IsLine line)
    (hblank : ¬Text.isBlankText line = true) {value : Value}
    (hresult : (Session.run config line .empty).result = .error (.write value)) :
    (CommandLine.runContent config (Text.stored [line]).toUTF8).errors = "" := by
  have hfailure : (Program.run config (Text.stored [line]) .empty).failure =
      some (.write value) := by
    rw [Program.run_stored config .empty (List.forall_mem_singleton.2 hline), List.foldl_cons,
      Program.runLine_of_not_blank config rfl hblank]
    exact Outcome.failure?_of_error hresult
  obtain ⟨-, -, hsome⟩ :=
    CommandLine.reportOn_eq (Program.run config (Text.stored [line]) .empty)
  rw [CommandLine.runContent_toUTF8, (hsome _ hfailure).2]
  rfl

/-- A line in which a lambda with a tall body is found fails, but no report of that is written to
the errors of the program. -/
theorem runContent_stored_tall :
    let lines := [Session.tall.text]
    let typing := CommandLine.inShell {}
    let report := CommandLine.runContent {} (Text.stored lines).toUTF8
    (∀ line ∈ lines, Text.IsLine line ∧ Line.HoldsSource line) ∧
      ¬Passes typing .empty lines ∧ ¬∃ error, Text.storedLines report.errors = [error] := by
  dsimp only
  obtain ⟨rest, hrest⟩ := Session.exists_toList_text_tall
  obtain ⟨hholds, hblank⟩ := Line.holdsSource_of_openParen hrest
  have hisLine : Text.IsLine Session.tall.text := (@Session.readable_tall none rfl).isLine_text
  obtain ⟨htyped, -⟩ := Session.run_tall (CommandLine.inShell {}) rfl (by decide) (by decide)
    (by decide) (by decide) .empty
  obtain ⟨hstored, -⟩ := Session.run_tall {} rfl (by decide) (by decide) (by decide) (by decide)
    .empty
  have herrors := errors_of_write hisLine hblank hstored
  refine ⟨List.forall_mem_singleton.2 ⟨hisLine, hholds⟩, ?_, ?_⟩
  · rintro ⟨hpasses, -⟩
    obtain ⟨-, hsame, -, -⟩ := reply_of_not_blank (CommandLine.inShell {}) .empty hholds hblank
    cases (hsame.symm.trans hpasses).symm.trans (Outcome.failure?_of_error htyped)
  · rintro ⟨error, herror⟩
    rw [herrors] at herror
    cases herror

end Shell

end PrefixLogic
