import PrefixLogic.Session
import PrefixLogic.Text.Blank
import PrefixLogic.Text.Lines

/-!
# Programs

A program is a stored text. Its lines are run in order in one environment; blank lines are passed
over. Each value is written on a line of its own, and the first failure ends the program, whether it
is one that is told or a fault.
-/

namespace PrefixLogic.Program

/-- What a program has done so far. -/
structure Progress where
  env : Env
  output : String
  trace : Trace
  failure : Option Failure

/-- Runs one more line, unless a line has failed. -/
def runLine (config : Config) (progress : Progress) (line : String) : Progress :=
  if progress.failure.isSome || Text.isBlankText line then progress
  else
    let outcome := Session.run config line progress.env
    let trace := progress.trace ++ outcome.trace
    match outcome.result with
    | .ok value => ⟨outcome.env, progress.output ++ value.text ++ "\n", trace, none⟩
    | .error failure => ⟨outcome.env, progress.output, trace, some failure⟩

/-- Runs a program in an environment. -/
def run (config : Config) (text : String) (env : Env) : Progress :=
  (Text.storedLines text).foldl (runLine config) ⟨env, "", [], none⟩

end PrefixLogic.Program
