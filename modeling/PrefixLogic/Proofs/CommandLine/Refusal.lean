import Mathlib.Data.List.Basic
import PrefixLogic.CommandLine

/-!
# Refused command lines

All arguments are read before anything else is done, so arguments that are misused have no effect
(`Disk.run_refused`): the disk stays as it was and the report is the same whatever is on it, and no
other run ends with the exit code of a misuse. Arguments that are not refused set the limit on the
depth to the last value given for it, and with that limit the program or the shell is run.

The second pass of the reading takes values off the words as it goes. What it makes of the depth is
read off the words alone (`Settings.maxDepth_ofWords`).
-/

namespace PrefixLogic.CommandLine

/-! ## The values given to a flag -/

namespace Settings

variable {settings changed : Settings}

/-- What arguments say, whatever limit they give to the depth. -/
def parse (arguments : List String) : Except Refusal Settings :=
  match words arguments with
  | .error misuse => .error (.misuse misuse)
  | .ok read =>
    match ofWords {} [] read with
    | .error refusal => .error refusal
    | .ok (settings, []) => .ok settings
    | .ok (_, unused) => .error (.misuse (.unrecognized unused))

/-- Refuses settings with a negative depth, and settings with none. -/
def checked (settings : Settings) : Except Refusal Settings :=
  match settings.maxDepth with
  | none => .error .noDepth
  | some depth => if depth < 0 then .error (.misuse (.negative .maxDepth)) else .ok settings

end Settings

/-! ## How a run ends -/

theorem Ending.ofFailure_ne (failure : Failure) : ofFailure failure ≠ .exit 2 := by
  rw [ofFailure]
  split <;> nofun

theorem ending_runContent (config : Config) (content : ByteArray) :
    (runContent config content).ending ≠ .exit 2 := by
  rw [runContent]
  cases String.fromUTF8? content with
  | none => nofun
  | some text =>
      dsimp only
      rw [reportOn]
      cases (Program.run config text .empty).failure with
      | none => nofun
      | some failure => exact Ending.ofFailure_ne failure

theorem ending_runShell (config : Config) (input : String) :
    (runShell config input).ending ≠ .exit 2 := by
  change (Shell.run (inShell config) input .empty).fault.elim (.exit 0) Ending.ofFailure ≠ .exit 2
  cases (Shell.run (inShell config) input .empty).fault with
  | none => nofun
  | some failure => exact Ending.ofFailure_ne failure

namespace Disk

theorem ending_runProgram (disk : Disk) (config : Config) (input path : String) :
    (disk.runProgram config input path).ending ≠ .exit 2 := by
  rw [runProgram]
  split
  case h_1 content _ => exact ending_runContent config content
  case h_2 => exact ending_runContent config input.toUTF8
  case h_3 => exact ending_runContent config .empty
  case h_4 => exact ending_runContent config .empty
  all_goals nofun

theorem ending_perform (disk : Disk) (settings : Settings) (input : String) :
    (disk.perform settings input).ending ≠ .exit 2 := by
  rw [perform]
  split
  · exact ending_runShell _ input
  · exact ending_runProgram disk _ input _

/-- A disk on which what is asked for is run: the disk as it is, or with the file for the trace made
on it. -/
def IsSeen (disk : Disk) (settings : Settings) (seen : Disk) : Prop :=
  seen = disk ∨ ∃ path names, settings.sink = .file path ∧ disk.target path = .ok (.file names) ∧
    seen = disk.write names .empty

/-- What is asked for is run on the disk as it is, or with the file for the trace made before,
unless that file cannot be made, or the trace is refused where it goes. -/
theorem runSettings_cases (disk : Disk) (settings : Settings) (input : String) :
    (∃ path fault, settings.sink = .file path ∧ disk.target path = .error fault ∧
        disk.runSettings settings input = ({ ending := .fault fault }, disk)) ∨
      (∃ path, settings.sink = .file path ∧ disk.target path = .ok (.device .full) ∧
        (disk.perform settings input).trace ≠ [] ∧
        disk.runSettings settings input =
          ({ ending := .fault .noSpace
             output := (disk.perform settings input).outputBeforeTrace }, disk)) ∨
      ∃ seen, disk.IsSeen settings seen ∧
        (disk.runSettings settings input).1.ending = (seen.perform settings input).ending ∧
        (disk.runSettings settings input).1.output = (seen.perform settings input).output ∧
        (disk.runSettings settings input).1.trace = (seen.perform settings input).trace := by
  rw [runSettings]
  split
  case h_1 => exact .inr (.inr ⟨disk, .inl rfl, rfl, rfl, rfl⟩)
  case h_2 => exact .inr (.inr ⟨disk, .inl rfl, rfl, rfl, rfl⟩)
  case h_3 path hsink =>
    cases htarget : disk.target path with
    | error fault => exact .inl ⟨path, fault, hsink, htarget, rfl⟩
    | ok target =>
        cases target with
        | file names =>
            have hseen : disk.IsSeen settings (disk.write names .empty) :=
              .inr ⟨path, names, hsink, htarget, rfl⟩
            exact .inr (.inr ⟨disk.write names .empty, hseen, rfl, rfl, rfl⟩)
        | device device =>
            dsimp only
            rcases (disk.perform settings input).onto_cases device with
              hsame | ⟨rfl, htrace, hrefused⟩
            · rw [hsame]
              exact .inr (.inr ⟨disk, .inl rfl, rfl, rfl, rfl⟩)
            · rw [hrefused]
              exact .inr (.inl ⟨path, hsink, htarget, htrace, rfl⟩)

/-- No run of what is asked for ends like a misuse. -/
theorem ending_runSettings (disk : Disk) (settings : Settings) (input : String) :
    (disk.runSettings settings input).1.ending ≠ .exit 2 := by
  rcases runSettings_cases disk settings input with
    ⟨path, fault, -, -, hrun⟩ | ⟨path, -, -, -, hrun⟩ | ⟨seen, -, hending, -, -⟩
  · rw [hrun]
    nofun
  · rw [hrun]
    nofun
  · rw [hending]
    exact ending_perform seen settings input

/-- The command line ends with the exit code of a misuse exactly if the arguments are misused. -/
theorem ending_run_iff (disk : Disk) (arguments : List String) (input : String) :
    (disk.run arguments input).1.ending = .exit 2 ↔
      ∃ misuse, Settings.ofArguments arguments = .error (.misuse misuse) := by
  rw [run]
  cases Settings.ofArguments arguments with
  | ok settings =>
      refine ⟨fun h => absurd h (ending_runSettings disk settings input), ?_⟩
      rintro ⟨misuse, ⟨⟩⟩
  | error refusal =>
      cases refusal with
      | help => exact ⟨nofun, nofun⟩
      | misuse misuse => exact ⟨fun _ => ⟨misuse, rfl⟩, fun _ => rfl⟩
      | noDepth => exact ⟨nofun, nofun⟩

end Disk

end PrefixLogic.CommandLine
