import PrefixLogic.Session
import PrefixLogic.Shell.Line
import PrefixLogic.Text.Lines

/-!
# The shell

The shell reads lines and answers each of them: with the value of an expression or the reason why
it has none, or with what a command asks for. It ends at a line that asks for it, and the end of
the input counts as such a line. No failure that is told ends it, but a fault does.
-/

namespace PrefixLogic.Shell

/-- What is written before each line is read. -/
def prompt : String := "lip> "

/-- What a line asks for. -/
inductive Request where
  | nothing
  | bindings
  | help
  | exit
  | farewell
  | unknown (command : String)
  | expression (source : String)
  deriving DecidableEq, Repr

/-- The request of a line. A line that has a text and no command holds an expression. -/
def Line.request (line : Line) : Request :=
  match line.command.getD "" with
  | "" => if line.text = "" then .nothing else .expression line.text
  | "env" => .bindings
  | "help" => .help
  | "exit" => .exit
  | "EOF" => .farewell
  | command => .unknown command

/-- The answer to a request for help. -/
def helpText : String :=
  "Boolean expressions in prefix notation: T, F, (& ...), (| ...), (^ x),\n" ++
    "(if cond then else), (def name expr) and (lambda (params) body).\n" ++
    "Meta-commands: :env prints bindings, :exit leaves the shell.\n"

/-- Whether there is room to write the value of a name, if it has one. -/
def isListed (room : Room) (env : Env) (name : String) : Bool :=
  (env.get? name).all fun value => room.holds value.cells

/-- The bindings of an environment, a line for each visible name, up to the first value for which
there is no room. -/
def bindingsText (room : Room) (env : Env) : String :=
  String.join ((env.names.takeWhile (isListed room env)).map fun name =>
    name ++ " = " ++ ((env.get? name).elim "" Value.text) ++ "\n")

/-- The first visible value for which there is no room. -/
def unlisted? (room : Room) (env : Env) : Option Value :=
  (env.names.find? fun name => !isListed room env name).bind env.get?

/-- What the shell answers: its words, the environment after that, what was traced, whether it ends,
and the fault at which it ends, if it does so. -/
structure Reply where
  output : String
  env : Env
  trace : Trace
  ends : Bool
  fault : Option Failure

/-- The answer to a request for the bindings. It is given with two cells more than an evaluation
has, and quoting a value takes one of them. -/
def listBindings (room : Room) (env : Env) : Reply :=
  let fault := (unlisted? (room.more 1) env).map Failure.write
  ⟨bindingsText (room.more 1) env, env, [], fault.isSome, fault⟩

/-- The answer to an expression, by what came out of the run of it. What a run could write can be
written here too. -/
def answer (outcome : Outcome Failure) : Reply :=
  match outcome.result with
  | .ok value => ⟨value.text ++ "\n", outcome.env, outcome.trace, false, none⟩
  | .error failure =>
    if failure.isTold then ⟨failure.report ++ "\n", outcome.env, outcome.trace, false, none⟩
    else ⟨"", outcome.env, outcome.trace, true, some failure⟩

/-- The answer to a request. -/
def respond (config : Config) (env : Env) : Request → Reply
  | .nothing => ⟨"", env, [], false, none⟩
  | .bindings => listBindings config.room env
  | .help => ⟨helpText, env, [], false, none⟩
  | .exit => ⟨"", env, [], true, none⟩
  | .farewell => ⟨"\n", env, [], true, none⟩
  | .unknown command => ⟨"Unknown command: :" ++ command ++ "\n", env, [], false, none⟩
  | .expression source => answer (Session.run config source env)

/-- The answer to a line. -/
def reply (config : Config) (env : Env) (line : String) : Reply :=
  respond config env (Line.ofString line).request

/-- What the shell has done so far: all it has written, its environment, its trace, whether it has
ended, and the fault at which it ended, if it did so. -/
structure Transcript where
  output : String
  env : Env
  trace : Trace
  ended : Bool
  fault : Option Failure

/-- The shell before it has read a line. -/
def Transcript.start (env : Env) : Transcript := ⟨"", env, [], false, none⟩

/-- Reads and answers one more line, unless the shell has ended. -/
def feed (config : Config) (transcript : Transcript) (line : String) : Transcript :=
  if transcript.ended then transcript
  else
    let reply := reply config transcript.env line
    ⟨transcript.output ++ prompt ++ reply.output, reply.env, transcript.trace ++ reply.trace,
      reply.ends, reply.fault⟩

/-- The lines of an input, with the one that stands for the end of it. -/
def inputLines (input : String) : List String := Text.typedLines input ++ [Line.endWord]

/-- Runs the shell on an input. -/
def run (config : Config) (input : String) (env : Env) : Transcript :=
  (inputLines input).foldl (feed config) (.start env)

/-- What the shell has written when it comes to the first line of which something is traced. -/
def outputBeforeTrace (config : Config) : Transcript → List String → String
  | transcript, [] => transcript.output
  | transcript, line :: lines =>
    let next := feed config transcript line
    if next.trace.isEmpty then outputBeforeTrace config next lines
    else transcript.output ++ prompt

end PrefixLogic.Shell
