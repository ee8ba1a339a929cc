import PrefixLogic.Text.Quoted

/-!
# What the command line can say

The flags of the command line, the settings that they make up, and the ways in which arguments
can be misused, with the words of each report.
-/

namespace PrefixLogic.CommandLine

/-- The flags. -/
inductive Flag where
  | help
  | verbose
  | debugFile
  | maxDepth
  deriving DecidableEq, Repr

namespace Flag

/-- The spellings of the flags, in the order in which they are declared. -/
def spellings : List (String × Flag) :=
  [("-h", help), ("--help", help), ("-v", verbose), ("--debug-file", debugFile),
    ("--max-depth", maxDepth)]

/-- A flag by all its spellings. -/
def name (flag : Flag) : String :=
  "/".intercalate ((spellings.filter fun spelling => spelling.2 = flag).map Prod.fst)

/-- Whether a flag takes a value. -/
def takesValue : Flag → Bool
  | help | verbose => false
  | debugFile | maxDepth => true

end Flag

/-- The ways in which arguments can be misused. -/
inductive Misuse where
  | ambiguous (argument : String) (candidates : List String)
  | ignoredValue (flag : Flag) (value : String)
  | missingValue (flag : Flag)
  | notInteger (flag : Flag) (value : String)
  | unrecognized (arguments : List String)
  | negative (flag : Flag)
  deriving DecidableEq, Repr

/-- The wording of a misuse. -/
def Misuse.message : Misuse → String
  | ambiguous argument candidates =>
    "ambiguous option: " ++ argument ++ " could match " ++ ", ".intercalate candidates
  | ignoredValue flag value =>
    "argument " ++ flag.name ++ ": ignored explicit argument " ++ Text.quoted value
  | missingValue flag => "argument " ++ flag.name ++ ": expected one argument"
  | notInteger flag value =>
    "argument " ++ flag.name ++ ": invalid int value: " ++ Text.quoted value
  | unrecognized arguments => "unrecognized arguments: " ++ " ".intercalate arguments
  | negative flag => flag.name ++ " must not be negative"

/-- What the arguments ask for: the program to run, if any, how deep its calls may nest, how much
is traced, and where the trace goes. The last value given for a flag counts, even if it is none. -/
structure Settings where
  program : Option String := none
  maxDepth : Option Int := some 100
  verbosity : Nat := 0
  debugFile : Option String := some "debug.txt"
  deriving DecidableEq, Repr

/-- Why nothing is run: the arguments ask for help, they are misused, or they leave the depth
without a value. -/
inductive Refusal where
  | help
  | misuse (misuse : Misuse)
  | noDepth
  deriving DecidableEq, Repr

/-- The summary of the arguments. -/
def usage : String :=
  "usage: lip [-h] [-v] [--debug-file PATH] [--max-depth N] [program]\n"

/-- The answer to a request for help. -/
def help : String :=
  usage ++ "\nlip boolean expression interpreter\n" ++
    "\npositional arguments:\n" ++
    "  program            lip program file to execute\n" ++
    "\noptions:\n" ++
    "  -h, --help         show this help message and exit\n" ++
    "  -v                 increase debug verbosity (can be repeated)\n" ++
    "  --debug-file PATH  file to write debug information to ('-' for stderr)\n" ++
    "  --max-depth N      maximum nesting of lambda calls (0 disables the limit)\n"

/-- The report of a misuse. -/
def Misuse.report (misuse : Misuse) : String :=
  usage ++ "lip: error: " ++ misuse.message ++ "\n"

end PrefixLogic.CommandLine
