import PrefixLogic.CommandLine.Settings
import PrefixLogic.Text.Integer

/-!
# Reading arguments

Arguments are read in two passes. The first one tells flags from plain arguments: a long flag may
be cut short as long as one flag only begins that way, a value may be attached to it after an
equals sign, negative numbers and arguments with spaces are plain, and everything after the
separator `--` is plain. The second pass goes from left to right and takes each flag with its
value. The first plain argument that is no value is the program.

A misuse found by the first pass is reported before any flag has an effect. Arguments that have no
use are reported when all others have been read.
-/

namespace PrefixLogic.CommandLine

/-! ## Telling flags from plain arguments -/

/-- An argument after the first pass. A flag comes with the value attached to it, if any, and with
whether it was spelled with one dash. -/
inductive Word where
  | plain (text : String)
  | separator
  | flag (flag : Flag) (short : Bool) (value : Option String)
  | unknown (text : String)
  deriving DecidableEq, Repr

/-- Whether a spelling has one dash. -/
def isShort (spelling : String) : Bool := (spelling.toList.drop 1).head? ≠ some '-'

/-- Cuts an argument at its first equals sign. -/
def cutValue (argument : String) : String × Option String :=
  match argument.toList.dropWhile (· ≠ '=') with
  | [] => (argument, none)
  | _ :: value =>
    (String.ofList (argument.toList.takeWhile (· ≠ '=')), some (String.ofList value))

/-- The spellings that an argument with two dashes may be short for. -/
def longCandidates (argument : String) : List (String × Word) :=
  let (stem, value) := cutValue argument
  (Flag.spellings.filter fun spelling => stem.toList.isPrefixOf spelling.1.toList).map
    fun spelling => (spelling.1, .flag spelling.2 (isShort spelling.1) value)

/-- The spellings of one letter that an argument begins with; the value is the rest. -/
def shortCandidates (argument : String) : List (String × Word) :=
  (Flag.spellings.filter fun spelling => spelling.1.toList = argument.toList.take 2).map
    fun spelling =>
      (spelling.1, .flag spelling.2 true (some (String.ofList (argument.toList.drop 2))))

/-- Whether a text after a dash makes a negative number; one newline may follow. -/
def isUnsignedNumber (text : List Char) : Bool :=
  let digits := if text.getLast? = some '\n' then text.dropLast else text
  match digits.dropWhile Text.isDecimalDigit with
  | [] => !digits.isEmpty
  | '.' :: decimals => !decimals.isEmpty && decimals.all Text.isDecimalDigit
  | _ => false

/-- An argument that is not spelled like a flag: cut short, with a value attached, or plain. -/
def Word.ofUnspelled (argument : String) : Except Misuse Word :=
  let candidates :=
    if isShort argument then shortCandidates argument else longCandidates argument
  match candidates with
  | [(_, word)] => .ok word
  | _ :: _ :: _ => .error (.ambiguous argument (candidates.map Prod.fst))
  | [] =>
    if isUnsignedNumber (argument.toList.drop 1) || argument.contains ' ' then
      .ok (.plain argument)
    else .ok (.unknown argument)

/-- Reads one argument before the separator. -/
def Word.ofArgument (argument : String) : Except Misuse Word :=
  if argument.toList.head? ≠ some '-' then .ok (.plain argument)
  else
    match Flag.spellings.lookup argument with
    | some known => .ok (.flag known (isShort argument) none)
    | none =>
      if argument = "-" then .ok (.plain argument)
      else
        -- a full spelling before the equals sign goes before all that it is short for
        let (stem, value) := cutValue argument
        match Flag.spellings.lookup stem with
        | some known => .ok (.flag known (isShort stem) value)
        | none => Word.ofUnspelled argument

/-- The first pass. -/
def words : List String → Except Misuse (List Word)
  | [] => .ok []
  | argument :: rest =>
    if argument = "--" then .ok (.separator :: rest.map .plain)
    else do return (← Word.ofArgument argument) :: (← words rest)

/-! ## Giving flags their effect -/

/-- The flags of a group of letters behind one dash, of which the first one is known. -/
def groupedFlags (flag : Flag) : List Char → Except Misuse (List Flag)
  | [] => .ok [flag]
  | c :: rest =>
    match Flag.spellings.lookup (String.ofList ['-', c]) with
    | some next => (groupedFlags next rest).map (flag :: ·)
    | none => .error (.ignoredValue flag (String.ofList (c :: rest)))

/-- Gives a flag without a value its effect. -/
def Settings.switch (settings : Settings) : Flag → Except Refusal Settings
  | .help => .error .help
  | .verbose => .ok { settings with verbosity := settings.verbosity + 1 }
  | flag => .error (.misuse (.missingValue flag))

/-- Gives a flag that takes a value its effect. A separator attached to the flag stands for no
value, and takes back a value given before. -/
def Settings.assign (settings : Settings) (flag : Flag) (value : String) :
    Except Refusal Settings :=
  match flag with
  | .debugFile => .ok { settings with debugFile := if value = "--" then none else some value }
  | .maxDepth =>
    if value = "--" then .ok { settings with maxDepth := none }
    else
      match Text.readInt? value with
      | some depth => .ok { settings with maxDepth := some depth }
      | none => .error (.misuse (.notInteger .maxDepth value))
  | flag => .error (.misuse (.ignoredValue flag value))

/-- Gives a flag that takes no value its effect. A value attached to a letter is more letters. -/
def Settings.switchWith (settings : Settings) (flag : Flag) (short : Bool) :
    Option String → Except Refusal Settings
  | none => settings.switch flag
  | some value =>
    if short && !value.isEmpty then
      match groupedFlags flag value.toList with
      | .ok flags => flags.foldlM Settings.switch settings
      | .error misuse => .error (.misuse misuse)
    else .error (.misuse (.ignoredValue flag value))

/-- The second pass. Arguments without use are collected; the separator is of no use unless it
stands beside the program or where the program may still come. -/
def Settings.ofWords (settings : Settings) (unused : List String) :
    List Word → Except Refusal (Settings × List String)
  | [] => .ok (settings, unused)
  | .unknown text :: rest => settings.ofWords (unused ++ [text]) rest
  | .separator :: rest =>
    settings.ofWords (if settings.program.isSome then unused ++ ["--"] else unused) rest
  | .plain text :: .separator :: rest =>
    match settings.program with
    -- the separator stands beside the program
    | none => { settings with program := some text }.ofWords unused rest
    | some _ => settings.ofWords (unused ++ [text, "--"]) rest
  | .plain text :: rest =>
    match settings.program with
    | none => { settings with program := some text }.ofWords unused rest
    | some _ => settings.ofWords (unused ++ [text]) rest
  | .flag flag short value :: rest =>
    if flag.takesValue then
      -- an attached value comes first; the separator is never a value
      match value, rest with
      | some value, rest => do (← settings.assign flag value).ofWords unused rest
      | none, .plain value :: rest => do (← settings.assign flag value).ofWords unused rest
      | none, _ => .error (.misuse (.missingValue flag))
    else do (← settings.switchWith flag short value).ofWords unused rest

/-- The settings that arguments make up. -/
def Settings.ofArguments (arguments : List String) : Except Refusal Settings :=
  match words arguments with
  | .error misuse => .error (.misuse misuse)
  | .ok words =>
    match Settings.ofWords {} [] words with
    | .error refusal => .error refusal
    | .ok (settings, unused) =>
      if unused ≠ [] then .error (.misuse (.unrecognized unused))
      else
        match settings.maxDepth with
        | none => .error .noDepth
        | some depth =>
          if depth < 0 then .error (.misuse (.negative .maxDepth)) else .ok settings

end PrefixLogic.CommandLine
