import PrefixLogic.CommandLine.Disk

/-!
# What writing a file leaves alone

A file is made in a directory, where no directory and no device stands
(`Disk.holdsFile_of_target`). So making it or changing it makes no directory and removes none
(`Disk.isDirectory_write`), and what stands at other places stays there (`Disk.node?_write`).

Hence a path that leads to another place finds what it has found before (`Disk.agree_find`). Where
a path leads over the new file, there was nothing before and there is no directory after, so it
finds nothing either way.
-/

namespace PrefixLogic.CommandLine

/-- A lookup that finds nothing, though no name in it is too long. -/
def Misses {α : Type} (found : Except Fault α) : Prop :=
  ∃ fault, found = .error fault ∧ fault ≠ .nameTooLong

/-- Two lookups that find the same, or both of them nothing. -/
def Agree {α : Type} (found other : Except Fault α) : Prop :=
  found = other ∨ Misses found ∧ Misses other

theorem Agree.eq_ok_iff {α : Type} {found other : Except Fault α} (h : Agree found other)
    {value : α} : found = .ok value ↔ other = .ok value := by
  rcases h with rfl | ⟨⟨fault, rfl, -⟩, ⟨fault', rfl, -⟩⟩
  · rfl
  · simp

namespace Disk

/-- The place to which a path leads, whether anything stands there or not: the last name of the
path, in the directory in which that name is looked up. -/
def place? (disk : Disk) (path : String) : Option (List String) :=
  match disk.parent path, (pathNames path).getLast? with
  | .ok directory, some name =>
    if name = "." ∨ name = ".." then none else some (directory ++ [name])
  | _, _ => none

/-- A place for a file: it has a name that can be looked up in a directory, and neither a directory
nor a device is there. -/
structure HoldsFile (disk : Disk) (names : List String) : Prop where
  in_directory : ∃ directory name, names = directory ++ [name] ∧
    disk.isDirectory directory = true ∧ name.utf8ByteSize ≤ maxNameBytes
  not_directory : ¬disk.isDirectory names = true
  not_device : devices.lookup names = none

variable {disk : Disk} {names other : List String}

/-! ## Directories -/

theorem isDirectory_iff :
    disk.isDirectory names = true ↔
      names <+: disk.here ∨ (∃ name ∈ systemDirectories, names = [name]) ∨
        ∃ file ∈ disk.files, names <+: file.1 ∧ names ≠ file.1 := by
  simp [isDirectory, or_assoc]

theorem isDirectory_nil (disk : Disk) : disk.isDirectory [] = true :=
  isDirectory_iff.2 (.inl List.nil_prefix)

/-- The way to a directory leads through directories. -/
theorem isDirectory_of_way (hway : other <+: names) (h : disk.isDirectory names = true) :
    disk.isDirectory other = true := by
  rcases isDirectory_iff.1 h with hhere | ⟨name, hname, rfl⟩ | ⟨file, hfile, hnames, hne⟩
  · exact isDirectory_iff.2 (.inl (hway.trans hhere))
  · rcases List.prefix_cons_iff.1 hway with rfl | ⟨rest, rfl, hrest⟩
    · exact isDirectory_nil disk
    · rw [List.prefix_nil.1 hrest]
      exact h
  · refine isDirectory_iff.2 (.inr (.inr ⟨file, hfile, hway.trans hnames, ?_⟩))
    rintro rfl
    exact hne (hnames.eq_of_length_le hway.length_le)

/-- Where no directory and no device is, there may be a file. -/
theorem node?_of_no_device (hdirectory : ¬disk.isDirectory names = true)
    (hdevice : devices.lookup names = none) :
    disk.node? names = (disk.files.lookup names).map .file := by
  rw [node?, if_neg hdirectory, hdevice]

/-- A device is at its place, unless a directory is there. -/
theorem node?_of_device {device : Device} (hdirectory : ¬disk.isDirectory names = true)
    (hdevice : devices.lookup names = some device) :
    disk.node? names = some (.device device) := by
  rw [node?, if_neg hdirectory, hdevice]

theorem node?_eq_directory_iff :
    disk.node? names = some .directory ↔ disk.isDirectory names = true := by
  by_cases h : disk.isDirectory names = true
  · simp [node?, h]
  · cases hdevice : devices.lookup names with
    | none => simp [node?_of_no_device h hdevice, h]
    | some device => simp [node?_of_device h hdevice, h]

/-- What stands at the place of a name decides where to go on from there. -/
theorem enter_cons (disk : Disk) (directory rest : List String) {name : String} (hdot : name ≠ ".")
    (hdots : name ≠ "..") :
    disk.enter directory (name :: rest) =
      match disk.child? directory name with
      | .error fault => .error fault
      | .ok (some .directory) => disk.enter (directory ++ [name]) rest
      | .ok (some _) => .error .notDirectory
      | .ok none => .error .notFound :=
  -- the last equation of the definition, for a name that is none of the dots
  enter.eq_4 disk directory name rest hdot hdots

theorem enter_of_long (disk : Disk) (directory rest : List String) {name : String}
    (hdot : name ≠ ".") (hdots : name ≠ "..") (hlong : maxNameBytes < name.utf8ByteSize) :
    disk.enter directory (name :: rest) = .error .nameTooLong := by
  rw [enter_cons disk directory rest hdot hdots, child?, if_pos hlong]

/-- Without a directory there is nowhere to go on from. -/
theorem misses_enter {directory : List String} (rest : List String) {name : String}
    (hdot : name ≠ ".") (hdots : name ≠ "..") (hlong : ¬maxNameBytes < name.utf8ByteSize)
    (h : ¬disk.isDirectory (directory ++ [name]) = true) :
    Misses (disk.enter directory (name :: rest)) := by
  rw [enter_cons disk directory rest hdot hdots, child?, if_neg hlong]
  have hnode := mt node?_eq_directory_iff.1 h
  cases hfound : disk.node? (directory ++ [name]) with
  | none => exact ⟨.notFound, rfl, nofun⟩
  | some node =>
      cases node with
      | directory => exact absurd hfound hnode
      | _ => exact ⟨.notDirectory, rfl, nofun⟩

/-- A name that is looked up is not too long, and stands for what is at its place. -/
theorem child?_eq_ok_iff {directory : List String} {name : String} {found : Option Node} :
    disk.child? directory name = .ok found ↔
      name.utf8ByteSize ≤ maxNameBytes ∧ disk.node? (directory ++ [name]) = found := by
  rw [child?]
  split
  case isTrue hlong => simp [Nat.not_le.2 hlong]
  case isFalse hlong => simp [Nat.not_lt.1 hlong]

/-- Names that are followed from a directory lead to one. -/
theorem isDirectory_of_enter {directory rest final : List String}
    (h : disk.isDirectory directory = true) (henter : disk.enter directory rest = .ok final) :
    disk.isDirectory final = true := by
  fun_induction enter disk directory rest with
  | case1 directory =>
      cases henter
      exact h
  | case2 directory rest ih => exact ih h henter
  | case3 directory rest ih =>
      have hup := List.dropLast_prefix directory
      exact ih (isDirectory_of_way hup h) henter
  -- of the cases in which a name is looked up, only this one goes on
  | case5 directory name rest _ _ hchild ih =>
      exact ih (node?_eq_directory_iff.1 (child?_eq_ok_iff.1 hchild).2) henter
  | _ => cases henter

theorem isDirectory_of_parent {path : String} {directory : List String}
    (h : disk.parent path = .ok directory) : disk.isDirectory directory = true := by
  have hhere : disk.isDirectory disk.here = true := isDirectory_iff.2 (.inl List.prefix_rfl)
  rw [parent] at h
  split at h
  · cases h
  split at h
  · cases h
  refine isDirectory_of_enter ?_ h
  split
  · exact isDirectory_nil disk
  · exact hhere

/-- A path says to write a file at the place to which it leads, where its last name stands for a
file or for nothing. -/
theorem exists_child?_of_target {path : String} (h : disk.target path = .ok (.file names)) :
    disk.place? path = some names ∧
      ∃ directory name found, names = directory ++ [name] ∧ disk.parent path = .ok directory ∧
        disk.child? directory name = .ok found ∧ found ≠ some .directory ∧
        ∀ device, found ≠ some (.device device) := by
  rw [target] at h
  rw [place?]
  cases hparent : disk.parent path with
  | error fault =>
      rw [hparent] at h
      cases h
  | ok directory =>
      simp only [hparent, bind, Except.bind] at h
      -- a path whose last name is missing or a dot is refused
      split at h
      case h_4 name hdot hdots hlast =>
        have hplace : (if name = "." ∨ name = ".." then none else some (directory ++ [name])) =
            some (directory ++ [name]) := if_neg (not_or.2 ⟨hdot, hdots⟩)
        rw [hlast]
        dsimp only
        rw [hplace]
        split at h
        case isTrue => cases h
        case isFalse =>
          cases hchild : disk.child? directory name with
          | error fault =>
              rw [hchild] at h
              cases h
          | ok found =>
              simp only [hchild] at h
              split at h
              case h_1 => cases h
              case h_2 => cases h
              case h_3 content =>
                cases h
                exact ⟨rfl, directory, name, some (.file content), rfl, rfl, hchild, nofun, nofun⟩
              case h_4 =>
                cases h
                exact ⟨rfl, directory, name, none, rfl, rfl, hchild, nofun, nofun⟩
      all_goals cases h

/-- A path says to write a file only at a place for one. -/
theorem holdsFile_of_target {path : String} (h : disk.target path = .ok (.file names)) :
    disk.HoldsFile names := by
  obtain ⟨-, directory, name, found, rfl, hparent, hchild, hdirectory, hnone⟩ :=
    exists_child?_of_target h
  obtain ⟨hlength, rfl⟩ := child?_eq_ok_iff.1 hchild
  have hplace := mt node?_eq_directory_iff.2 hdirectory
  refine ⟨⟨directory, name, rfl, isDirectory_of_parent hparent, hlength⟩, hplace, ?_⟩
  cases hdevice : devices.lookup (directory ++ [name]) with
  | none => rfl
  | some device => exact absurd (node?_of_device hplace hdevice) (hnone device)

/-! ## After a file is written -/

theorem lookup_write (disk : Disk) (content : ByteArray) (hne : other ≠ names) :
    (disk.write names content).files.lookup other = disk.files.lookup other := by
  have hkept (files : List (List String × ByteArray)) :
      (files.filter fun file => file.1 ≠ names).lookup other = files.lookup other := by
    induction files with
    | nil => rfl
    | cons file files ih =>
        by_cases hsame : file.1 = names
        · rw [List.filter_cons_of_neg (by simpa using hsame), ih, List.lookup_cons, hsame,
            beq_false_of_ne hne]
        · rw [List.filter_cons_of_pos (by simpa using hsame), List.lookup_cons,
            List.lookup_cons, ih]
  rw [write, List.lookup_cons, beq_false_of_ne hne, hkept]

/-- The last content that is written counts. -/
theorem write_write (disk : Disk) (names : List String) (content last : ByteArray) :
    (disk.write names content).write names last = disk.write names last := by
  simp [write, List.filter_filter]

section

variable (h : disk.HoldsFile names) (content : ByteArray)

include h

theorem isDirectory_write (other : List String) :
    (disk.write names content).isDirectory other = disk.isDirectory other := by
  obtain ⟨directory, name, rfl, hdirectory, -⟩ := h.in_directory
  rw [Bool.eq_iff_iff]
  constructor
  · intro hother
    rcases isDirectory_iff.1 hother with hhere | hsystem | ⟨file, hfile, hleads, hne⟩
    · exact isDirectory_iff.2 (.inl hhere)
    · exact isDirectory_iff.2 (.inr (.inl hsystem))
    · rcases List.mem_cons.1 hfile with rfl | hfile
      · -- the way to the file leads through the directory in which it is
        have hway := (List.prefix_concat_iff.1 hleads).resolve_left hne
        exact isDirectory_of_way hway hdirectory
      · exact isDirectory_iff.2
          (.inr (.inr ⟨file, (List.mem_filter.1 hfile).1, hleads, hne⟩))
  · intro hother
    rcases isDirectory_iff.1 hother with hhere | hsystem | ⟨file, hfile, hway, hne⟩
    · exact isDirectory_iff.2 (.inl hhere)
    · exact isDirectory_iff.2 (.inr (.inl hsystem))
    · refine isDirectory_iff.2 (.inr (.inr ?_))
      -- a file that is written over leads through the same directories as before
      by_cases hsame : file.1 = directory ++ [name]
      · exact ⟨_, List.mem_cons_self, hsame ▸ hway, hsame ▸ hne⟩
      · exact ⟨file, List.mem_cons_of_mem _ (List.mem_filter.2 ⟨hfile, by simpa using hsame⟩),
          hway, hne⟩

/-- Nothing changes at another place. -/
theorem node?_write (hne : other ≠ names) :
    (disk.write names content).node? other = disk.node? other := by
  rw [node?, node?, isDirectory_write h, lookup_write disk content hne]

theorem child?_write {directory : List String} {name : String} (hne : directory ++ [name] ≠ names) :
    (disk.write names content).child? directory name = disk.child? directory name := by
  rw [child?, child?, node?_write h content hne]

/-- Names that are followed lead to the same directory as before, or nowhere as before. -/
theorem agree_enter (directory rest : List String) :
    Agree (disk.enter directory rest) ((disk.write names content).enter directory rest) := by
  induction rest generalizing directory with
  | nil => exact .inl rfl
  | cons name rest ih =>
      by_cases hdot : name = "."
      · subst hdot
        exact ih directory
      by_cases hdots : name = ".."
      · subst hdots
        exact ih directory.dropLast
      by_cases hnames : directory ++ [name] = names
      · -- the file is no directory to go on from, whether it was there before or not
        have hbefore : ¬disk.isDirectory (directory ++ [name]) = true := hnames ▸ h.not_directory
        have hafter : ¬(disk.write names content).isDirectory (directory ++ [name]) = true := by
          rwa [isDirectory_write h content]
        by_cases hlong : maxNameBytes < name.utf8ByteSize
        · exact .inl ((enter_of_long disk directory rest hdot hdots hlong).trans
            (enter_of_long _ directory rest hdot hdots hlong).symm)
        · exact .inr ⟨misses_enter rest hdot hdots hlong hbefore,
            misses_enter rest hdot hdots hlong hafter⟩
      · rw [enter_cons disk directory rest hdot hdots, enter_cons _ directory rest hdot hdots,
          child?_write h content hnames]
        split
        case h_2 => exact ih _
        all_goals exact .inl rfl

theorem agree_parent (path : String) :
    Agree (disk.parent path) ((disk.write names content).parent path) := by
  rw [parent, parent]
  split
  · exact .inl rfl
  split
  · exact .inl rfl
  exact agree_enter h content _ _

/-- A path that leads to another place finds what it has found before. -/
theorem agree_find {path : String} (hplace : disk.place? path ≠ some names) :
    Agree (disk.find path) ((disk.write names content).find path) := by
  rcases agree_parent h content path with hsame | ⟨hbefore, hafter⟩
  · cases hparent : disk.parent path with
    | error fault =>
        refine .inl ?_
        rw [find, find, ← hsame, hparent]
        rfl
    | ok directory =>
        rw [place?, hparent] at hplace
        refine .inl ?_
        rw [find, find, ← hsame, hparent]
        simp only [bind, Except.bind]
        split
        case h_4 name hdot hdots hlast =>
          have hne : directory ++ [name] ≠ names := by
            intro heq
            rw [hlast, ← heq] at hplace
            exact hplace (if_neg (not_or.2 ⟨hdot, hdots⟩))
          rw [child?_write h content hne]
        all_goals rfl
  · obtain ⟨fault, hbefore, hfault⟩ := hbefore
    obtain ⟨fault', hafter, hfault'⟩ := hafter
    rw [find, find, hbefore, hafter]
    exact .inr ⟨⟨fault, rfl, hfault⟩, ⟨fault', rfl, hfault'⟩⟩

/-- A path that leads to the place finds what is written there. -/
theorem find_write {path : String} (hplace : disk.place? path = some names) :
    (disk.write names content).find path = .ok (.file content) := by
  rw [place?] at hplace
  split at hplace
  case h_2 => cases hplace
  case h_1 directory name hparent hlast =>
    split at hplace
    case isTrue => cases hplace
    case isFalse hdots =>
      obtain rfl := Option.some.inj hplace
      -- the name in the directory is the last name of the path, so it is not too long
      obtain ⟨_, _, hnames, -, hlength⟩ := h.in_directory
      obtain ⟨rfl, hname⟩ := List.append_inj' hnames rfl
      obtain rfl := List.singleton_inj.1 hname
      have hnode : (disk.write (directory ++ [name]) content).node? (directory ++ [name]) =
          some (.file content) := by
        have hdirectory := h.not_directory
        rw [← isDirectory_write h content] at hdirectory
        rw [node?_of_no_device hdirectory h.not_device, write, List.lookup_cons_self]
        rfl
      rw [find, (agree_parent h content path).eq_ok_iff.1 hparent]
      simp only [bind, Except.bind]
      split
      case h_1 hnone => cases hnone.symm.trans hlast
      case h_2 hdot => exact absurd (.inl (Option.some.inj (hlast.symm.trans hdot))) hdots
      case h_3 hdot => exact absurd (.inr (Option.some.inj (hlast.symm.trans hdot))) hdots
      case h_4 other _ _ hother =>
        obtain rfl := Option.some.inj (hother.symm.trans hlast)
        rw [child?_eq_ok_iff.2 ⟨hlength, hnode⟩]
        rfl

end

end Disk

end PrefixLogic.CommandLine
