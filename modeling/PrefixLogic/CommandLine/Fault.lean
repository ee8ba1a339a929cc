import PrefixLogic.Failure

/-!
# Faults

A fault ends the command line without an exit code of its own. Most of them are what the file system
refuses. An untold failure is one of the program that is run, or of the shell.
-/

namespace PrefixLogic.CommandLine

/-- Why the command line ends without an exit code. -/
inductive Fault where
  | notFound
  | isDirectory
  | notDirectory
  | nameTooLong
  | nulInPath
  | notText
  | noSpace
  | endless
  | noDepth
  | untold (failure : Failure)
  deriving DecidableEq, Repr

/-- The wording of a fault. -/
def Fault.message : Fault → String
  | notFound => "no such file or directory"
  | isDirectory => "is a directory"
  | notDirectory => "not a directory"
  | nameTooLong => "name too long"
  | nulInPath => "the path holds a null character"
  | notText => "the file is not UTF-8 text"
  | noSpace => "no space left on the device"
  | endless => "what the device gives has no end"
  | noDepth => "the depth has no value"
  | untold failure => failure.message

end PrefixLogic.CommandLine
