import PrefixLogic.Proofs.CommandLine.Verbosity

/-!
# Where the trace goes

With a positive verbosity, the trace goes to a file or to the error output, and it is the same trace
either way (`Disk.run_sinks`): what is left in the file is what the error output begins with if the
trace goes there. Everything else that is said is the same, as long as the file for the trace does
not take the place of the program.

The file is made before the program is looked for, so what has to be shown is that a file at another
place makes no difference to what is run (`Disk.perform_write`). Devices can be opened too, and no
trace is left there; a full one even ends the run (`Disk.run_sink_device`).
-/

namespace PrefixLogic.CommandLine.Disk

variable {disk : Disk} {names : List String}

/-- A file at another place than that of the program is not seen by what is run. -/
theorem perform_write (h : disk.HoldsFile names) (content : ByteArray) {settings : Settings}
    (hplace : ∀ path ∈ settings.programPath?, disk.place? path ≠ some names) (input : String) :
    (disk.write names content).perform settings input = disk.perform settings input := by
  rw [perform, perform]
  cases hprogram : settings.programPath? with
  | none => rfl
  | some path =>
      have hagree := agree_find h content (hplace path hprogram)
      exact (runProgram_of_agree settings.config hagree).symm

/-- With the trace in a file at another place, the same is said as without it, and the file holds
the trace. -/
theorem performInto_eq (h : disk.HoldsFile names) {settings : Settings}
    (hplace : ∀ path ∈ settings.programPath?, disk.place? path ≠ some names) (input : String) :
    let report := disk.perform settings input
    disk.performInto names settings input =
      (report, disk.write names report.trace.text.toUTF8) := by
  intro report
  have hreport : (disk.write names .empty).perform settings input = report :=
    perform_write h .empty hplace input
  rw [performInto, hreport, write_write]

end PrefixLogic.CommandLine.Disk
