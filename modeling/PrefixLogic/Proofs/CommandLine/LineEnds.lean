import PrefixLogic.Proofs.CommandLine.Writing
import PrefixLogic.Proofs.Program.Course
import PrefixLogic.Proofs.Text.LineEnds

/-!
# Line ends in program files

A line end may be lost with an empty line, but blank lines are not run. So a program does what it
does when each of its lines is ended by a newline, whichever line ends are in its file
(`runContent_of_writes`).

The command line reads the content of a file to run it, and for nothing else. So on two disks that
differ only in contents that run alike, it says the same (`Disk.run_of_alike`), and it says the same
about a program however its lines are ended (`report_of_writes`).
-/

namespace PrefixLogic

/-- Blank lines are not run. -/
theorem Program.foldl_runLine_notBlank (config : Config) (lines : List String)
    (progress : Progress) :
    (Text.notBlank lines).foldl (runLine config) progress =
      lines.foldl (runLine config) progress := by
  induction lines generalizing progress with
  | nil => rfl
  | cons line lines ih =>
      rw [Text.notBlank, List.filter_cons, List.foldl_cons]
      by_cases hblank : Text.isBlankText line = true
      · rw [if_neg (by simp [hblank]), runLine_of_blank config progress hblank, ← ih]
        rfl
      · rw [if_pos (by simp [hblank]), List.foldl_cons, ← ih]
        rfl

/-- A text does what its lines do when each of them is ended by a newline. -/
theorem Program.run_of_writes (config : Config) {lines : List String} {text : String}
    (h : Text.Writes lines text) (env : Env) :
    run config text env = run config (Text.typed lines) env := by
  rw [run, run, ← foldl_runLine_notBlank, ← foldl_runLine_notBlank config (Text.storedLines _),
    h.notBlank_storedLines, (Text.writes_typed h.isLine).notBlank_storedLines]

namespace CommandLine

/-- Contents of files that do the same when they are run. -/
def RunsAlike (content other : ByteArray) : Prop :=
  ∀ config, runContent config content = runContent config other

theorem runContent_of_writes {lines : List String} {text : String} (h : Text.Writes lines text) :
    RunsAlike text.toUTF8 (Text.typed lines).toUTF8 := by
  intro config
  rw [runContent_toUTF8, runContent_toUTF8, Program.run_of_writes config h]

/-- Disks that differ in the contents of files only, and whose files run alike. -/
structure Disk.Alike (disk other : Disk) : Prop where
  here : disk.here = other.here
  files : disk.files.Forall₂ (fun file file' => file.1 = file'.1 ∧ RunsAlike file.2 file'.2)
    other.files

namespace Disk

theorem alike_write (disk : Disk) (names : List String) {content content' : ByteArray}
    (h : RunsAlike content content') :
    (disk.write names content).Alike (disk.write names content') where
  here := rfl
  files := .cons ⟨rfl, h⟩ (List.forall₂_same.2 fun _ _ => ⟨rfl, fun _ => rfl⟩)

variable {disk other : Disk}

/-- The same content is written on both. -/
theorem Alike.write (h : disk.Alike other) (names : List String) (content : ByteArray) :
    (disk.write names content).Alike (other.write names content) where
  here := h.here
  files := by
    refine .cons ⟨rfl, fun _ => rfl⟩ (List.rel_filter ?_ h.files)
    rintro file file' ⟨hnames, -⟩
    simp [hnames]

/-! ## What is looked up -/

section

variable (h : disk.Alike other)

include h

theorem Alike.isDirectory_eq (names : List String) :
    disk.isDirectory names = other.isDirectory names := by
  have hany : (disk.files.any fun file => names.isPrefixOf file.1 && names ≠ file.1) =
      other.files.any fun file => names.isPrefixOf file.1 && names ≠ file.1 := by
    have hfiles := h.files
    generalize disk.files = files, other.files = files' at hfiles ⊢
    induction hfiles with
    | nil => rfl
    | cons hfile _ ih => rw [List.any_cons, List.any_cons, hfile.1, ih]
  rw [isDirectory, isDirectory, h.here, hany]

theorem Alike.lookup (names : List String) :
    Option.Rel RunsAlike (disk.files.lookup names) (other.files.lookup names) := by
  have hfiles := h.files
  generalize disk.files = files, other.files = files' at hfiles ⊢
  induction hfiles with
  | nil => exact .none
  | @cons file file' _ _ hfile _ ih =>
      rw [List.lookup_cons, List.lookup_cons, hfile.1]
      cases names == file'.1 with
      | false => exact ih
      | true => exact .some hfile.2

theorem Alike.node? (names : List String) :
    disk.node? names = other.node? names ∨
      ∃ content content', disk.node? names = some (.file content) ∧
        other.node? names = some (.file content') ∧ RunsAlike content content' := by
  by_cases hdirectory : disk.isDirectory names = true
  · have hother := h.isDirectory_eq names ▸ hdirectory
    exact .inl ((node?_eq_directory_iff.2 hdirectory).trans (node?_eq_directory_iff.2 hother).symm)
  have hother := h.isDirectory_eq names ▸ hdirectory
  cases hdevice : devices.lookup names with
  | some device =>
      rw [node?_of_device hdirectory hdevice, node?_of_device hother hdevice]
      exact .inl rfl
  | none =>
      rw [node?_of_no_device hdirectory hdevice, node?_of_no_device hother hdevice]
      have hlookup := h.lookup names
      generalize disk.files.lookup names = found, other.files.lookup names = found' at hlookup ⊢
      cases hlookup with
      | none => exact .inl rfl
      | some hruns => exact .inr ⟨_, _, rfl, rfl, hruns⟩

theorem Alike.child? (directory : List String) (name : String) :
    disk.child? directory name = other.child? directory name ∨
      ∃ content content', disk.child? directory name = .ok (some (.file content)) ∧
        other.child? directory name = .ok (some (.file content')) ∧
        RunsAlike content content' := by
  rw [Disk.child?, Disk.child?]
  split
  · exact .inl rfl
  · rcases h.node? (directory ++ [name]) with hsame | ⟨content, content', hnode, hnode', hruns⟩
    · exact .inl (congrArg Except.ok hsame)
    · exact .inr ⟨content, content', congrArg Except.ok hnode, congrArg Except.ok hnode', hruns⟩

/-- No content is looked at on the way to a directory. -/
theorem Alike.enter_eq (directory rest : List String) :
    disk.enter directory rest = other.enter directory rest := by
  induction rest generalizing directory with
  | nil => rfl
  | cons name rest ih =>
      by_cases hdot : name = "."
      · subst hdot
        exact ih directory
      by_cases hdots : name = ".."
      · subst hdots
        exact ih directory.dropLast
      rw [enter_cons disk directory rest hdot hdots, enter_cons other directory rest hdot hdots]
      rcases h.child? directory name with hsame | ⟨content, content', hchild, hchild', -⟩
      · rw [hsame, ih]
      · rw [hchild, hchild']

theorem Alike.parent_eq (path : String) : disk.parent path = other.parent path := by
  rw [parent, parent, h.here]
  simp only [h.enter_eq]

theorem Alike.target_eq (path : String) : disk.target path = other.target path := by
  rw [target, target, h.parent_eq]
  cases other.parent path with
  | error fault => rfl
  | ok directory =>
      simp only [bind, Except.bind]
      split
      case h_4 name _ _ _ =>
        rcases h.child? directory name with hsame | ⟨content, content', hchild, hchild', -⟩
        · rw [hsame]
        · rw [hchild, hchild']
      all_goals rfl

theorem Alike.find (path : String) :
    disk.find path = other.find path ∨
      ∃ content content', disk.find path = .ok (.file content) ∧
        other.find path = .ok (.file content') ∧ RunsAlike content content' := by
  rw [Disk.find, Disk.find, h.parent_eq]
  cases other.parent path with
  | error fault => exact .inl rfl
  | ok directory =>
      simp only [bind, Except.bind]
      split
      case h_4 name _ _ _ =>
        rcases h.child? directory name with hsame | ⟨content, content', hchild, hchild', hruns⟩
        · exact .inl (by rw [hsame])
        · rw [hchild, hchild']
          exact .inr ⟨content, content', rfl, rfl, hruns⟩
      all_goals exact .inl rfl

/-! ## What is said -/

theorem Alike.runProgram_eq (config : Config) (input path : String) :
    disk.runProgram config input path = other.runProgram config input path := by
  rw [runProgram, runProgram]
  rcases h.find path with hsame | ⟨content, content', hfind, hfind', hruns⟩
  · rw [hsame]
  · rw [hfind, hfind']
    exact hruns config

theorem Alike.perform_eq (settings : Settings) (input : String) :
    disk.perform settings input = other.perform settings input := by
  rw [perform, perform]
  cases settings.programPath? with
  | none => rfl
  | some path => exact h.runProgram_eq settings.config input path

theorem Alike.performInto_eq (names : List String) (settings : Settings) (input : String) :
    (disk.performInto names settings input).1 = (other.performInto names settings input).1 :=
  (h.write names .empty).perform_eq settings input

/-- On disks whose files run alike, the command line says the same. -/
theorem run_of_alike (arguments : List String) (input : String) :
    (disk.run arguments input).1 = (other.run arguments input).1 := by
  rw [run, run]
  cases Settings.ofArguments arguments with
  | error refusal => rfl
  | ok settings =>
      change (disk.runSettings settings input).1 = (other.runSettings settings input).1
      rw [runSettings, runSettings]
      cases settings.sink with
      | nowhere => exact h.perform_eq settings input
      | errors => simp only [h.perform_eq settings input]
      | file path =>
          simp only [h.target_eq path]
          cases other.target path with
          | error fault => rfl
          | ok target =>
              cases target with
              | device device =>
                  exact congrArg (Report.onto · device) (h.perform_eq settings input)
              | file names => exact h.performInto_eq names settings input

end

end Disk

/-- However the lines of a program are ended in its file, the same is said about it as if each of
them was ended by a newline: about the content of the file in every configuration, and by the
command line with that file anywhere on a disk, whatever its arguments are. -/
theorem report_of_writes {lines : List String} {text : String} (h : Text.Writes lines text) :
    (∀ config, runContent config text.toUTF8 = runContent config (Text.typed lines).toUTF8) ∧
      ∀ (disk : Disk) (names arguments : List String) (input : String),
        ((disk.write names text.toUTF8).run arguments input).1 =
          ((disk.write names (Text.typed lines).toUTF8).run arguments input).1 := by
  have halike := runContent_of_writes h
  exact ⟨halike, fun disk names => Disk.run_of_alike (disk.alike_write names halike)⟩

/-- An empty line is lost between a carriage return and its newline, and the last line has no
end. -/
theorem report_of_writes_mixed :
    let lines := ["(def x T)", "", "^", "(x"]
    let text := "(def x T)\r\n^\u2028(x"
    let report := runContent { verbosity := 1 } text.toUTF8
    Text.Writes lines text ∧ Text.storedLines text = ["(def x T)", "^", "(x"] ∧
      report = runContent { verbosity := 1 } (Text.typed lines).toUTF8 ∧
      report.output = "T\n^\n" ∧ report.ending = .exit 1 ∧
      report.trace.inputs = ["(def x T)", "^", "(x"] := by
  intro lines text report
  have hline : ∀ line ∈ lines, Text.IsLine line := by decide +kernel
  have hwrites : Text.Writes lines text := by
    simp only [lines, List.forall_mem_cons] at hline
    obtain ⟨hdef, hempty, hnot, hcall, -⟩ := hline
    have hreturn : "\r" ∈ Text.lineEnds := by decide
    have hnewline : "\n" ∈ Text.lineEnds := by decide
    have hseparator : "\u2028" ∈ Text.lineEnds := by decide
    exact .cons hdef hreturn (.cons hempty hnewline (.cons hnot hseparator (.last hcall)))
  have hreport : report = _ := runContent_toUTF8 { verbosity := 1 } text
  refine ⟨hwrites, by decide +kernel, (report_of_writes hwrites).1 _, ?_, ?_, ?_⟩
  all_goals
    rw [hreport]
    decide +kernel

end CommandLine

end PrefixLogic
