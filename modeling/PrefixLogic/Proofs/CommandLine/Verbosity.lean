import PrefixLogic.Proofs.CommandLine.Writing
import PrefixLogic.Proofs.Program.Course
import PrefixLogic.Proofs.Session.OneLine
import PrefixLogic.Proofs.Shell.Line

/-!
# The verbosity of the command line

A verbosity adds a trace to what the command line does with a program. It changes neither how the
program ends nor what it writes nor which of its lines are run, and the file of the program is left
alone (`Disk.run_verbosity`), as long as the trace is taken where it goes, does not go to the place
of the program, and there is room to write it.

The file for the trace is made before the program is looked for. So if the trace goes to the place
of the program, an empty program is run, even if there was none
(`Disk.runSettings_onto_program`). A full device ends the run at the first event
(`Disk.runSettings_into_full`), and an expression that is too deep to be recorded is not evaluated
(`Disk.run_tallBranch`).
-/

namespace PrefixLogic.CommandLine

/-- A trace that goes there comes out nowhere else: it is kept in a file or dropped by a device. -/
def Target.TakesTrace : Target → Prop
  | .file _ => True
  | .device taker => taker = .null ∨ taker = .endless

theorem Report.onto_of_takesTrace (report : Report) {device : Device}
    (h : (Target.device device).TakesTrace) : report.onto device = report := by
  rcases h with rfl | rfl <;> rfl

/-- A report without what was traced. -/
def Report.untraced (report : Report) : Report := { report with trace := [] }

/-- The verbosity has no part in what is said of a program, the trace aside, unless the traced run
is stopped for lack of room. -/
theorem reportOn_withVerbosity (config : Config) {level full : Int} (hle : level ≤ full)
    (text : String)
    (hroom : (Program.run (config.withVerbosity full) text .empty).failure ≠
      some (.evaluate .nesting)) :
    (reportOn (Program.run (config.withVerbosity level) text .empty)).untraced =
      (reportOn (Program.run (config.withVerbosity full) text .empty)).untraced := by
  rw [Program.run_withVerbosity config .empty (covers_of_le hle) text (.inr hroom)]
  generalize Program.run (config.withVerbosity full) text .empty = progress
  obtain ⟨env, output, trace, failure⟩ := progress
  cases failure <;> rfl

theorem trace_reportOn (progress : Program.Progress) :
    (reportOn progress).trace = progress.trace := by
  obtain ⟨env, output, trace, failure⟩ := progress
  cases failure <;> rfl

namespace Disk

/-- The text that is read of the program at a path, if there is one. -/
def programText? (disk : Disk) (input path : String) : Option String :=
  match disk.find path with
  | .ok (.file content) => String.fromUTF8? content
  | .ok (.device .input) => some input
  | .ok (.device .null) | .ok (.device .stream) => some ""
  | _ => none

/-- The lines that are run of the program at a path. -/
def executed (disk : Disk) (config : Config) (input path : String) : List String :=
  (disk.programText? input path).elim [] fun text => Program.executed config text .empty

section

variable {disk : Disk} {input path : String}

/-! ## Running the program at a path -/

theorem runProgram_of_text {text : String} (h : disk.programText? input path = some text)
    (config : Config) :
    disk.runProgram config input path = reportOn (Program.run config text .empty) := by
  rw [programText?] at h
  split at h
  case h_1 content hfind =>
    rw [runProgram, hfind]
    dsimp only
    rw [runContent, h]
  case h_2 hfind =>
    rw [runProgram, hfind, ← Option.some.inj h]
    exact runContent_toUTF8 config input
  case h_3 hfind =>
    rw [runProgram, hfind, ← Option.some.inj h]
    exact runContent_toUTF8 config ""
  case h_4 hfind =>
    rw [runProgram, hfind, ← Option.some.inj h]
    exact runContent_toUTF8 config ""
  case h_5 => cases h

/-- Where no text is read, nothing is run, however it is asked for. -/
theorem runProgram_of_no_text (h : disk.programText? input path = none) (config : Config) :
    (disk.runProgram config input path).trace = [] ∧
      ∀ other, disk.runProgram config input path = disk.runProgram other input path := by
  rw [programText?] at h
  split at h
  case h_1 content hfind =>
    simp only [runProgram, hfind, runContent, h]
    exact ⟨trivial, fun _ => trivial⟩
  case h_2 => cases h
  case h_3 => cases h
  case h_4 => cases h
  case h_5 hfile hinput hnull hstream =>
    cases hfind : disk.find path with
    | error fault => cases fault <;> simp [runProgram, hfind, missingReport]
    | ok node =>
        cases node with
        | directory => simp [runProgram, hfind]
        | file content => exact absurd hfind (hfile content)
        | device device =>
            cases device with
            | null => exact absurd hfind hnull
            | input => exact absurd hfind hinput
            | stream => exact absurd hfind hstream
            | endless => simp [runProgram, hfind]
            | full => simp [runProgram, hfind]

/-- With a positive verbosity, the trace tells the lines that are run. -/
theorem inputs_runProgram {config : Config} (h : 0 < config.verbosity) :
    (disk.runProgram config input path).trace.inputs = disk.executed config input path := by
  rw [executed]
  cases htext : disk.programText? input path with
  | none =>
      obtain ⟨htrace, -⟩ := runProgram_of_no_text htext config
      rw [htrace]
      rfl
  | some text =>
      rw [runProgram_of_text htext, trace_reportOn, Program.inputs_run h, Option.elim_some]

section

variable (config : Config) {level full : Int} (hle : level ≤ full)
  (hroom : ∀ text ∈ disk.programText? input path,
    (Program.run (config.withVerbosity full) text .empty).failure ≠ some (.evaluate .nesting))

include hle hroom

theorem runProgram_withVerbosity :
    (disk.runProgram (config.withVerbosity level) input path).untraced =
      (disk.runProgram (config.withVerbosity full) input path).untraced := by
  cases htext : disk.programText? input path with
  | none =>
      obtain ⟨-, hsame⟩ := runProgram_of_no_text htext (config.withVerbosity level)
      rw [hsame]
  | some text =>
      rw [runProgram_of_text htext, runProgram_of_text htext]
      exact reportOn_withVerbosity config hle text (hroom text htext)

theorem executed_withVerbosity :
    disk.executed (config.withVerbosity level) input path =
      disk.executed (config.withVerbosity full) input path := by
  rw [executed, executed]
  cases htext : disk.programText? input path with
  | none => rw [Option.elim_none, Option.elim_none]
  | some text =>
      rw [Option.elim_some, Option.elim_some]
      exact Program.executed_withVerbosity config .empty (covers_of_le hle) text
        (.inr (hroom text htext))

end

/-- All paths that lead nowhere are reported in the same way, unless a name is too long. -/
theorem runProgram_of_agree {other : Disk} (config : Config)
    (h : Agree (disk.find path) (other.find path)) :
    disk.runProgram config input path = other.runProgram config input path := by
  have hmissing {some : Disk} (hmisses : Misses (some.find path)) :
      some.runProgram config input path = missingReport path := by
    obtain ⟨fault, hfind, hfault⟩ := hmisses
    rw [runProgram, hfind]
    cases fault with
    | nameTooLong => exact absurd rfl hfault
    | _ => rfl
  rcases h with hsame | ⟨hbefore, hafter⟩
  · rw [runProgram, runProgram, hsame]
  · rw [hmissing hbefore, hmissing hafter]

end

/-- What a verbosity adds to a program is the trace, on any disk on which the path of the program
finds the same, unless the program is stopped for lack of room. -/
theorem perform_verbosity {disk other : Disk} {settings : Settings} {path : String}
    (hprogram : settings.programPath? = some path) (hverbose : 0 < settings.verbosity)
    {input : String} (hroom : ∀ text ∈ disk.programText? input path,
      (Program.run settings.config text .empty).failure ≠ some (.evaluate .nesting))
    (hagree : Agree (disk.find path) (other.find path)) :
    let quiet := { settings with verbosity := 0 }
    let report := other.perform settings input
    report.ending = (disk.perform quiet input).ending ∧
      report.output = (disk.perform quiet input).output ∧
      report.trace.inputs = disk.executed quiet.config input path := by
  intro quiet report
  have hreport : report = disk.runProgram settings.config input path := by
    change other.perform settings input = _
    rw [perform, hprogram, runProgram_of_agree _ hagree]
  have hprogram' : quiet.programPath? = some path := hprogram
  have hperform : disk.perform quiet input = disk.runProgram quiet.config input path := by
    rw [perform, hprogram']
  -- the settings differ in the verbosity of their configurations
  have hloud : settings.config = settings.config.withVerbosity settings.verbosity := rfl
  have hquiet : quiet.config = settings.config.withVerbosity 0 := rfl
  have hpositive : 0 < settings.config.verbosity := Int.natCast_pos.2 hverbose
  rw [hloud] at hroom
  have huntraced : (disk.perform quiet input).untraced = report.untraced := by
    rw [hreport, hperform, hquiet, runProgram_withVerbosity settings.config hpositive.le hroom]
    rfl
  refine ⟨?_, ?_, ?_⟩
  · exact (congrArg Report.ending huntraced).symm
  · exact (congrArg Report.output huntraced).symm
  · rw [hreport, inputs_runProgram hpositive, hquiet,
      executed_withVerbosity settings.config hpositive.le hroom]
    rfl

/-- If a trace is taken where it goes, and not put in the place of the program, then what is asked
for is run on a disk on which the path of the program finds what it has found, and it finds it after
that as well. -/
theorem exists_seen {disk : Disk} {settings : Settings} {path : String}
    (hsink : ∀ debugPath, settings.sink = .file debugPath →
      ∃ target, disk.target debugPath = .ok target ∧ target.TakesTrace ∧
        ∀ names, target = .file names → disk.place? path ≠ some names) (input : String) :
    let ran := disk.runSettings settings input
    Agree (disk.find path) (ran.2.find path) ∧
      ∃ seen : Disk, Agree (disk.find path) (seen.find path) ∧
        ran.1.ending = (seen.perform settings input).ending ∧
        ran.1.output = (seen.perform settings input).output ∧
        ran.1.trace = (seen.perform settings input).trace := by
  intro ran
  have hran : ran = disk.runSettings settings input := rfl
  rw [hran, runSettings]
  split
  case h_1 => exact ⟨.inl rfl, disk, .inl rfl, rfl, rfl, rfl⟩
  case h_2 => exact ⟨.inl rfl, disk, .inl rfl, rfl, rfl, rfl⟩
  case h_3 debugPath hfile =>
    obtain ⟨target, htarget, htakes, hplace⟩ := hsink debugPath hfile
    rw [htarget]
    cases target with
    | device device =>
        dsimp only
        rw [Report.onto_of_takesTrace _ htakes]
        exact ⟨.inl rfl, disk, .inl rfl, rfl, rfl, rfl⟩
    | file names =>
        have hagree := fun content =>
          agree_find (holdsFile_of_target htarget) content (hplace names rfl)
        -- the trace is written over the empty file
        dsimp only [performInto]
        rw [write_write]
        exact ⟨hagree _, disk.write names .empty, hagree .empty, rfl, rfl, rfl⟩

/-- A verbosity changes neither how a program ends nor what it writes nor which of its lines are
run, and leaves the program alone, provided that the traced program is not stopped for lack of room
to record or to evaluate, and that the trace goes to the error output, to a device that takes it and
keeps nothing, or to a file, which may be new, but is not at the place to which the path of the
program leads. -/
theorem run_verbosity (disk : Disk) {arguments quietArguments : List String} (input : String)
    {settings : Settings} {path : String}
    (harguments : Settings.ofArguments arguments = .ok settings)
    (hquiet : Settings.ofArguments quietArguments = .ok { settings with verbosity := 0 })
    (hprogram : settings.programPath? = some path) (hverbose : 0 < settings.verbosity)
    (hroom : ∀ text ∈ disk.programText? input path,
      (Program.run settings.config text .empty).failure ≠ some (.evaluate .nesting))
    (hsink : ∀ debugPath, settings.sink = .file debugPath →
      ∃ target, disk.target debugPath = .ok target ∧ target.TakesTrace ∧
        ∀ names, target = .file names → disk.place? path ≠ some names) :
    let traced := disk.run arguments input
    let quiet := disk.run quietArguments input
    traced.1.ending = quiet.1.ending ∧ traced.1.output = quiet.1.output ∧
      traced.1.trace.inputs = disk.executed { settings with verbosity := 0 }.config input path ∧
      (∀ content, disk.find path = .ok (.file content) ↔
        traced.2.find path = .ok (.file content)) ∧
      quiet.2 = disk := by
  intro traced quiet
  have htraced : traced = disk.runSettings settings input := by
    change disk.run arguments input = _
    rw [run, harguments]
  have huntraced : quiet = (disk.perform { settings with verbosity := 0 } input, disk) := by
    change disk.run quietArguments input = _
    rw [run, hquiet]
    rfl
  obtain ⟨hafter, seen, hagree, hsaid⟩ := exists_seen hsink input
  obtain ⟨hending, houtput, hinputs⟩ := perform_verbosity hprogram hverbose hroom hagree
  rw [huntraced, htraced, hsaid.1, hsaid.2.1, hsaid.2.2]
  exact ⟨hending, houtput, hinputs, fun content => hafter.eq_ok_iff, rfl⟩

/-- The trace goes to a file beside the program. -/
theorem run_verbosity_beside :
    let content := "(^ F)\nT\n".toUTF8
    let disk : Disk := ⟨["work"], [(["work", "p"], content)]⟩
    let traced := disk.run ["-vv", "--debug-file", "./q", "p"] ""
    let quiet := disk.run ["--debug-file", "./q", "p"] ""
    traced.1.ending = quiet.1.ending ∧ traced.1.output = quiet.1.output ∧
      disk.find "p" = .ok (.file content) ∧ traced.2.find "p" = .ok (.file content) := by
  intro content disk traced quiet
  have hfind : disk.find "p" = .ok (.file content) := by
    rw [find, parent, String.contains_char_eq]
    rfl
  have htarget : disk.target "./q" = .ok (.file ["work", "q"]) := by
    rw [target, parent, String.contains_char_eq]
    rfl
  have hplace : disk.place? "p" = some ["work", "p"] := by
    rw [place?, parent, String.contains_char_eq]
    rfl
  have harguments : Settings.ofArguments ["-vv", "--debug-file", "./q", "p"] =
      .ok ⟨some "p", some 100, 2, some "./q"⟩ := by decide +kernel
  have hquiet : Settings.ofArguments ["--debug-file", "./q", "p"] =
      .ok ⟨some "p", some 100, 0, some "./q"⟩ := by decide +kernel
  have hprogram : Settings.programPath? ⟨some "p", some 100, 2, some "./q"⟩ = some "p" := by
    decide +kernel
  have hroom : ∀ text ∈ disk.programText? "" "p",
      (Program.run { verbosity := 2 } text .empty).failure ≠ some (.evaluate .nesting) := by
    intro text htext
    rw [programText?, hfind] at htext
    have hread : String.fromUTF8? content = some "(^ F)\nT\n" := by decide +kernel
    rw [← Option.some.inj (hread.symm.trans htext)]
    decide +kernel
  have hsink : ∀ debugPath, Sink.file "./q" = .file debugPath →
      ∃ target, disk.target debugPath = .ok target ∧ target.TakesTrace ∧
        ∀ names, target = .file names → disk.place? "p" ≠ some names := by
    rintro debugPath ⟨⟩
    refine ⟨_, htarget, trivial, ?_⟩
    rintro names ⟨⟩
    rw [hplace]
    decide
  obtain ⟨hending, houtput, -, hcontent, -⟩ :=
    run_verbosity disk "" harguments hquiet hprogram (by decide) hroom hsink
  exact ⟨hending, houtput, hfind, (hcontent content).1 hfind⟩

/-! ## The trace at the place of the program -/

/-- If the trace goes to the place of the program, the program is gone: an empty one is run in its
stead, and is left there. -/
theorem runSettings_onto_program {disk : Disk} {settings : Settings} {path debugPath : String}
    {names : List String} (hprogram : settings.programPath? = some path)
    (hfile : settings.sink = .file debugPath) (htarget : disk.target debugPath = .ok (.file names))
    (hplace : disk.place? path = some names) (input : String) :
    let traced := disk.runSettings settings input
    traced.1 = { ending := .exit 0 } ∧ traced.2.find path = .ok (.file .empty) := by
  intro traced
  have hnames := holdsFile_of_target htarget
  have hreport : (disk.write names .empty).perform settings input = { ending := .exit 0 } := by
    rw [perform, hprogram]
    dsimp only
    rw [runProgram, find_write hnames .empty hplace]
    exact runContent_toUTF8 settings.config ""
  have hrun : traced = disk.performInto names settings input := by
    change disk.runSettings settings input = _
    rw [runSettings, hfile]
    dsimp only
    rw [htarget]
  rw [hrun, performInto]
  dsimp only
  rw [hreport, write_write]
  refine ⟨rfl, ?_⟩
  rw [find_write hnames _ hplace]
  rfl

/-! ## A trace that is refused -/

/-- A full device refuses the first event, and nothing more is done. -/
theorem runSettings_into_full {disk : Disk} {settings : Settings} {debugPath input : String}
    (hfile : settings.sink = .file debugPath)
    (htarget : disk.target debugPath = .ok (.device .full))
    (htrace : (disk.perform settings input).trace ≠ []) :
    disk.runSettings settings input =
      ({ ending := .fault .noSpace
         output := (disk.perform settings input).outputBeforeTrace }, disk) := by
  rw [runSettings, hfile]
  dsimp only
  rw [htarget]
  dsimp only
  rw [Report.onto, if_neg (by simp [htrace])]

/-! ## A trace for which there is no room -/

/-- A condition with a tall branch that is not taken. -/
def tallBranch : Expr := .cond (.bool true) (.bool true) (Expr.conditions 400)

theorem wellFormed_tallBranch : tallBranch.WellFormed :=
  .cond (.bool true) (.bool true) (Expr.wellFormed_conditions 400)

theorem read_tallBranch : Session.read (some roomCells) tallBranch.text = .ok tallBranch := by
  have hheight : tallBranch.height = 402 := by
    rw [tallBranch, Expr.height, Expr.height_conditions]
    rfl
  refine Session.read_eq_ok_iff.2 (Expr.Readable.ofTokens_text ⟨wellFormed_tallBranch, ?_⟩)
  rw [hheight]
  decide

/-- The branch is not evaluated, and it is written only if everything is traced. -/
theorem run_tallBranch :
    (Session.run {} tallBranch.text .empty).result = .ok (.bool true) ∧
      (Session.run { verbosity := 3 } tallBranch.text .empty).result =
        .error (.evaluate .nesting) := by
  have hquiet : (tallBranch.evaluate {} .empty).result = .ok (.bool true) := by decide +kernel
  have htraced : (tallBranch.evaluate { verbosity := 3 } .empty).result = .error .nesting := by
    decide +kernel
  obtain ⟨hresult, -⟩ := @Session.run_of_read {} _ _ read_tallBranch .empty
  obtain ⟨hresult', -⟩ := @Session.run_of_read { verbosity := 3 } _ _ read_tallBranch .empty
  rw [hresult, hresult', hquiet, htraced]
  exact ⟨rfl, rfl⟩

theorem exists_toList_text_tallBranch : ∃ rest, tallBranch.text.toList = '(' :: rest := by
  rw [tallBranch, Expr.text]
  simp only [String.toList_append, List.append_assoc]
  exact ⟨_, rfl⟩

/-! ## A verbosity that is seen -/

/-- A disk with a program on it. -/
def ofProgram (text : String) : Disk := ⟨["work"], [(["work", "p"], text.toUTF8)]⟩

theorem find_ofProgram (text : String) : (ofProgram text).find "p" = .ok (.file text.toUTF8) := by
  rw [find, parent, String.contains_char_eq]
  rfl

theorem perform_ofProgram {settings : Settings} (h : settings.programPath? = some "p")
    (text input : String) :
    (ofProgram text).perform settings input =
      reportOn (Program.run settings.config text .empty) := by
  rw [perform, h]
  dsimp only
  rw [runProgram, find_ofProgram]
  exact runContent_toUTF8 settings.config text

/-- What is said about a program of one line is told by the run of the line. -/
theorem reportOn_run_line (config : Config) {line : String} (hline : Text.IsLine line)
    (hblank : ¬Text.isBlankText line = true) :
    let report := reportOn (Program.run config (line ++ "\n") .empty)
    let result := (Session.run config line .empty).result
    (∀ value, result = .ok value →
        report.output = value.text ++ "\n" ∧ report.ending = .exit 0) ∧
      ∀ failure, result = .error failure →
        report.output = "" ∧ report.ending = .ofFailure failure := by
  intro report result
  let progress := Program.Progress.add ⟨.empty, "", [], none⟩ (Session.run config line .empty)
  have hreport : report = reportOn progress :=
    congrArg reportOn (Program.run_line config hline hblank .empty)
  obtain ⟨houtput, hpasses, hfails⟩ := reportOn_eq progress
  have hprinted : report.output = (Session.run config line .empty).printed := by
    rw [hreport, houtput]
    exact String.empty_append
  refine ⟨?_, ?_⟩
  · intro value hvalue
    obtain ⟨hending, -⟩ := hpasses (Outcome.failure?_of_ok hvalue)
    refine ⟨?_, hreport ▸ hending⟩
    rw [hprinted, Outcome.printed, show (Session.run config line .empty).result = _ from hvalue]
  · intro failure hfailure
    have hfailure := Outcome.failure?_of_error hfailure
    obtain ⟨hending, -⟩ := hfails failure hfailure
    refine ⟨?_, hreport ▸ hending⟩
    rw [hprinted, Outcome.printed_of_failure hfailure]

/-- The program is run at one verbosity and stopped at another. -/
theorem reportOn_tallBranch :
    ((reportOn (Program.run {} (tallBranch.text ++ "\n") .empty)).output = "T\n" ∧
      (reportOn (Program.run {} (tallBranch.text ++ "\n") .empty)).ending = .exit 0) ∧
    (reportOn (Program.run { verbosity := 3 } (tallBranch.text ++ "\n") .empty)).output = "" ∧
      (reportOn (Program.run { verbosity := 3 } (tallBranch.text ++ "\n") .empty)).ending =
        .exit 1 := by
  obtain ⟨rest, hrest⟩ := exists_toList_text_tallBranch
  obtain ⟨-, hblank⟩ := Shell.Line.holdsSource_of_openParen hrest
  have hline := wellFormed_tallBranch.isLine_text
  obtain ⟨hvalue, hfails⟩ := run_tallBranch
  obtain ⟨hquiet, -⟩ := reportOn_run_line {} hline hblank
  obtain ⟨-, htraced⟩ := reportOn_run_line { verbosity := 3 } hline hblank
  exact ⟨hquiet _ hvalue, htraced _ hfails⟩

/-- Where no file is opened for a trace, what is said is what is said about the program. -/
theorem run_ofProgram {arguments : List String} {settings : Settings}
    (harguments : Settings.ofArguments arguments = .ok settings)
    (hprogram : settings.programPath? = some "p") (hsink : ∀ path, settings.sink ≠ .file path)
    (text input : String) :
    let said := ((ofProgram text).run arguments input).1
    let report := reportOn (Program.run settings.config text .empty)
    said.ending = report.ending ∧ said.output = report.output := by
  intro said report
  have hsaid : said = ((ofProgram text).runSettings settings input).1 := by
    change ((ofProgram text).run arguments input).1 = _
    rw [run, harguments]
  have hreport : (ofProgram text).perform settings input = report :=
    perform_ofProgram hprogram text input
  rw [hsaid, runSettings, hreport]
  cases hwhere : settings.sink with
  | nowhere => exact ⟨rfl, rfl⟩
  | errors => exact ⟨rfl, rfl⟩
  | file path => exact absurd hwhere (hsink path)

/-- With the trace at its place, the program is not run, and it is gone. -/
theorem run_onto_program :
    let disk := ofProgram "T\n"
    let traced := disk.run ["-v", "--debug-file", "./p", "p"] ""
    traced.1.output = "" ∧ traced.2.find "p" ≠ disk.find "p" := by
  intro disk traced
  let settings : Settings := ⟨some "p", some 100, 1, some "./p"⟩
  have hsettings : Settings.ofArguments ["-v", "--debug-file", "./p", "p"] = .ok settings := by
    decide +kernel
  have hprogram : settings.programPath? = some "p" := by decide +kernel
  have htarget : disk.target "./p" = .ok (.file ["work", "p"]) := by
    rw [target, parent, String.contains_char_eq]
    rfl
  have hplace : disk.place? "p" = some ["work", "p"] := by
    rw [place?, parent, String.contains_char_eq]
    rfl
  obtain ⟨hreport, hlost⟩ := runSettings_onto_program hprogram rfl htarget hplace ""
  change (disk.run _ "").1.output = _ ∧ (disk.run _ "").2.find "p" ≠ _
  rw [run, hsettings]
  dsimp only
  rw [hreport, hlost, find_ofProgram]
  exact ⟨rfl, fun hsame => by cases hsame⟩

/-- With the trace on a full device, the program is broken off. -/
theorem run_into_full :
    ((ofProgram "T\n").run ["-v", "--debug-file", "/dev/full", "p"] "").1.ending =
      .fault .noSpace := by
  let settings : Settings := ⟨some "p", some 100, 1, some "/dev/full"⟩
  have hsettings : Settings.ofArguments ["-v", "--debug-file", "/dev/full", "p"] =
      .ok settings := by decide +kernel
  have hprogram : settings.programPath? = some "p" := by decide +kernel
  have htarget : (ofProgram "T\n").target "/dev/full" = .ok (.device .full) := by
    rw [target, parent, String.contains_char_eq]
    rfl
  have htrace : ((ofProgram "T\n").perform settings "").trace ≠ [] := by
    rw [perform_ofProgram hprogram, trace_reportOn]
    change (Program.run { verbosity := 1 } "T\n" .empty).trace ≠ []
    decide +kernel
  rw [run, hsettings]
  dsimp only
  rw [runSettings_into_full rfl htarget htrace]

/-- A verbosity is seen if the trace goes to the place of the program, if the trace is refused where
it goes, and if there is no room to record a branch that is not taken. -/
theorem run_verbosity_seen :
    let disk := ofProgram "T\n"
    let deep := ofProgram (tallBranch.text ++ "\n")
    let onto := disk.run ["-v", "--debug-file", "./p", "p"] ""
    let quiet := (disk.run ["p"] "").1
    let quiet' := (deep.run ["p"] "").1
    let traced' := (deep.run ["-vvv", "--debug-file", "-", "p"] "").1
    (quiet.output = "T\n" ∧ quiet.ending = .exit 0) ∧
      (onto.1.output = "" ∧ onto.2.find "p" ≠ disk.find "p") ∧
      (disk.run ["-v", "--debug-file", "/dev/full", "p"] "").1.ending = .fault .noSpace ∧
      (quiet'.output = "T\n" ∧ quiet'.ending = .exit 0) ∧
      traced'.output = "" ∧ traced'.ending = .exit 1 := by
  intro disk deep onto quiet quiet' traced'
  have hquiet : Settings.ofArguments ["p"] = .ok ⟨some "p", some 100, 0, some "debug.txt"⟩ := by
    decide +kernel
  have htraced : Settings.ofArguments ["-vvv", "--debug-file", "-", "p"] =
      .ok ⟨some "p", some 100, 3, some "-"⟩ := by decide +kernel
  have hprogram : (⟨some "p", some 100, 0, some "debug.txt"⟩ : Settings).programPath? =
      some "p" := by decide +kernel
  have hreport : (reportOn (Program.run {} "T\n" .empty)).output = "T\n" ∧
      (reportOn (Program.run {} "T\n" .empty)).ending = .exit 0 := by decide +kernel
  obtain ⟨hquietReport, htracedReport⟩ := reportOn_tallBranch
  have hsaid (text : String) := run_ofProgram hquiet hprogram (by rintro path ⟨⟩) text ""
  obtain ⟨hending, houtput⟩ := hsaid "T\n"
  obtain ⟨hending', houtput'⟩ := hsaid (tallBranch.text ++ "\n")
  obtain ⟨hstopped, hsilent⟩ := run_ofProgram htraced hprogram (by rintro path ⟨⟩)
    (tallBranch.text ++ "\n") ""
  exact ⟨⟨houtput.trans hreport.1, hending.trans hreport.2⟩, run_onto_program, run_into_full,
    ⟨houtput'.trans hquietReport.1, hending'.trans hquietReport.2⟩,
    hsilent.trans htracedReport.1, hstopped.trans htracedReport.2⟩

end Disk

end PrefixLogic.CommandLine
