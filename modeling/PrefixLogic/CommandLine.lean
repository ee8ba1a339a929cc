import PrefixLogic.CommandLine.Arguments
import PrefixLogic.CommandLine.Disk
import PrefixLogic.Program
import PrefixLogic.Shell

/-!
# The command line

The command line runs a program from a file, or the shell if no program is named. With a positive
verbosity the run is traced, to the error output or to a file that is made before anything else
happens. Arguments that are refused have no effect at all.

A program and the shell have the same room, but the shell has come further before it runs a line: it
has three cells less for that.
-/

namespace PrefixLogic.CommandLine

/-- Where the trace of a run goes. -/
inductive Sink where
  | nowhere
  | errors
  | file (path : String)
  deriving DecidableEq, Repr

namespace Settings

/-- What a run is configured with. A depth of zero stands for no limit. -/
def config (settings : Settings) : Config where
  maxDepth := settings.maxDepth.filter (· ≠ 0)
  verbosity := settings.verbosity

/-- Where the trace goes. A dash, the empty path and no path stand for the error output. -/
def sink (settings : Settings) : Sink :=
  if settings.verbosity = 0 then .nowhere
  else
    match settings.debugFile with
    | none | some "-" | some "" => .errors
    | some path => .file path

/-- The path of the program. An empty one names no program. -/
def programPath? (settings : Settings) : Option String :=
  (settings.program.filter fun path => path ≠ "").map tidyPath

end Settings

/-- How the command line ends: with an exit code, or at a fault. -/
inductive Ending where
  | exit (code : Nat)
  | fault (fault : Fault)
  deriving DecidableEq, Repr

/-- What a run says: how it ends, the text it writes to the output and to the error output, its
trace, and the output that is written before something is traced. -/
structure Report where
  ending : Ending
  output : String := ""
  errors : String := ""
  trace : Trace := []
  outputBeforeTrace : String := ""

/-- The report of a refusal. -/
def Refusal.report : Refusal → Report
  | help => { ending := .exit 0, output := CommandLine.help }
  | misuse cause => { ending := .exit 2, errors := cause.report }
  | noDepth => { ending := .fault .noDepth }

/-- The report on a program that is not there. -/
def missingReport (path : String) : Report where
  ending := .exit 1
  errors := "Error: file " ++ path ++ " not found\n"

/-- How a run ends at a failure: with an exit code if the failure is told. -/
def Ending.ofFailure (failure : Failure) : Ending :=
  if failure.isTold then .exit 1 else .fault (.untold failure)

/-- The report on a program that has been run. -/
def reportOn (progress : Program.Progress) : Report :=
  match progress.failure with
  | none => { ending := .exit 0, output := progress.output, trace := progress.trace }
  | some failure =>
    { ending := .ofFailure failure
      output := progress.output
      errors := if failure.isTold then failure.report ++ "\n" else ""
      trace := progress.trace }

/-- Runs the content of a program file. -/
def runContent (config : Config) (content : ByteArray) : Report :=
  match String.fromUTF8? content with
  | none => { ending := .fault .notText }
  | some text => reportOn (Program.run config text .empty)

/-- The configuration of a run that is begun in the shell. -/
def inShell (config : Config) : Config := { config with room := config.room.less 3 }

/-- Runs the shell on an input. -/
def runShell (config : Config) (input : String) : Report :=
  let transcript := Shell.run (inShell config) input .empty
  { ending := transcript.fault.elim (.exit 0) .ofFailure
    output := transcript.output
    trace := transcript.trace
    outputBeforeTrace :=
      Shell.outputBeforeTrace (inShell config) (.start .empty) (Shell.inputLines input) }

/-- What is left of a run whose trace is written to a device. A full one refuses the first event. -/
def Report.onto (report : Report) : Device → Report
  | .null | .endless | .input | .stream => report
  | .full =>
    if report.trace.isEmpty then report
    else { ending := .fault .noSpace, output := report.outputBeforeTrace }

/-- The trace goes to a device as if it went nowhere, unless it is refused there. -/
theorem Report.onto_cases (report : Report) (device : Device) :
    report.onto device = report ∨ device = .full ∧ report.trace ≠ [] ∧
      report.onto device = { ending := .fault .noSpace, output := report.outputBeforeTrace } := by
  cases device with
  | full =>
      rw [onto]
      cases htrace : report.trace with
      | nil => exact .inl rfl
      | cons event rest => exact .inr ⟨rfl, nofun, rfl⟩
  | _ => exact .inl rfl

namespace Disk

/-- Runs the program at a path, which may be the path of the input. Whatever keeps a path from
leading to a file, the program is then missing, unless a name is too long to be looked up. -/
def runProgram (disk : Disk) (config : Config) (input path : String) : Report :=
  match disk.find path with
  | .ok (.file content) => runContent config content
  | .ok (.device .input) => runContent config input.toUTF8
  | .ok (.device .null) | .ok (.device .stream) => runContent config .empty
  | .ok (.device .endless) | .ok (.device .full) => { ending := .fault .endless }
  | .ok .directory => { ending := .fault .isDirectory }
  | .error .nameTooLong => { ending := .fault .nameTooLong }
  | .error _ => missingReport path

/-- Runs what the settings ask for, the trace aside. -/
def perform (disk : Disk) (settings : Settings) (input : String) : Report :=
  match settings.programPath? with
  | none => runShell settings.config input
  | some path => disk.runProgram settings.config input path

/-- Runs what the settings ask for, with the trace in a file of the disk. The file is empty when
the run begins, even if it is the program. -/
def performInto (disk : Disk) (names : List String) (settings : Settings) (input : String) :
    Report × Disk :=
  let emptied := disk.write names .empty
  let report := emptied.perform settings input
  (report, emptied.write names report.trace.text.toUTF8)

/-- Runs what the settings ask for, and gives back what it says and the disk after it. -/
def runSettings (disk : Disk) (settings : Settings) (input : String) : Report × Disk :=
  match settings.sink with
  | .nowhere => (disk.perform settings input, disk)
  | .errors =>
    let report := disk.perform settings input
    ({ report with errors := report.trace.text ++ report.errors }, disk)
  | .file path =>
    match disk.target path with
    -- the file is made before the program is looked for
    | .ok (.file names) => disk.performInto names settings input
    | .ok (.device device) => ((disk.perform settings input).onto device, disk)
    | .error fault => ({ ending := .fault fault }, disk)

/-- Runs the command line with arguments on a disk, with an input to read from. -/
def run (disk : Disk) (arguments : List String) (input : String) : Report × Disk :=
  match Settings.ofArguments arguments with
  | .error refusal => (refusal.report, disk)
  | .ok settings => disk.runSettings settings input

end Disk

end PrefixLogic.CommandLine
