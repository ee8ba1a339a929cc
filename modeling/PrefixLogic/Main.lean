import PrefixLogic.CommandLine

/-!
# The program

Reads the arguments, runs what they ask for on the files of the machine, and writes as it goes.
-/

namespace PrefixLogic.CommandLine

/-- Writes a trace where it belongs. -/
def writeTrace (sink : Option IO.FS.Handle) (trace : Trace) : IO Unit := do
  if !trace.isEmpty then
    match sink with
    | none => IO.eprint trace.text
    | some file => file.putStr trace.text; file.flush

/-- Reports a fault at a path, or one of the whole program. -/
def reportFault (path : String) (fault : String) : IO UInt32 := do
  IO.eprintln (path ++ ": " ++ fault)
  return 1

/-- Writes a report and gives back the exit code. -/
def writeReport (path : String) (report : Report) : IO UInt32 := do
  IO.print report.output
  IO.eprint report.errors
  match report.ending with
  | .exit code => return code.toUInt32
  | .fault fault => reportFault path fault.message

/-- Reads and answers lines until the shell ends, and gives back the exit code. -/
partial def converse (config : Config) (sink : Option IO.FS.Handle) (env : Env) : IO UInt32 := do
  let output ← IO.getStdout
  output.putStr Shell.prompt
  output.flush
  let line ← (← IO.getStdin).getLine
  let reply := Shell.reply config env (if line.isEmpty then Shell.Line.endWord else line)
  writeTrace sink reply.trace
  output.putStr reply.output
  output.flush
  match reply.ends, reply.fault with
  | false, _ => converse config sink reply.env
  | true, none => return 0
  | true, some failure => reportFault "lip" failure.message

/-- Opens a file for reading, if there is one at a path. A path that leads through a file leads to
none. -/
def openFile? (path : String) : IO (Option IO.FS.Handle) := do
  try return some (← IO.FS.Handle.mk path .read)
  catch
    | .noFileOrDirectory .. | .inappropriateType .. => return none
    | error => throw error

/-- Runs the program at a path. -/
def runFile (config : Config) (sink : Option IO.FS.Handle) (path : String) : IO UInt32 := do
  match ← openFile? path with
  | none => writeReport path (missingReport path)
  | some file =>
    let report := runContent config (← file.readBinToEnd)
    writeTrace sink report.trace
    writeReport path report

/-- Runs what the settings ask for. -/
def runHere (settings : Settings) (sink : Option IO.FS.Handle) : IO UInt32 := do
  match settings.programPath? with
  | some path => runFile settings.config sink path
  | none => converse (inShell settings.config) sink .empty

end PrefixLogic.CommandLine

open PrefixLogic.CommandLine in
/-- Runs the command line. -/
def main (arguments : List String) : IO UInt32 := do
  match Settings.ofArguments arguments with
  | .error refusal => writeReport "lip" refusal.report
  | .ok settings =>
    match settings.sink with
    | .nowhere | .errors => runHere settings none
    | .file path => runHere settings (some (← IO.FS.Handle.mk path .write))
