import PrefixLogic.CommandLine.Fault
import PrefixLogic.CommandLine.Path

/-!
# A disk

Files, each by the names on the way to it from the root, and a working directory, from which paths
start that do not start at the root. A directory is there if it is one of the usual directories of
a system, or leads to the working directory or to a file. A few devices are there too. What is
written to the input or to a stream may come out anywhere, also in the output of the command line
itself: that is left out, and so is what a stream gives to read. There are no links.

Every name of a path but the last must lead to a directory; `..` leads to the directory above, and
above the root there is the root. The last name is looked up to read a file (`Disk.find`) or to
make one (`Disk.target`).
-/

namespace PrefixLogic.CommandLine

/-- The working directory, by its names from the root, and the files. -/
structure Disk where
  here : List String
  files : List (List String × ByteArray)

/-- What can be opened as a file can and is none. Nothing that is written to a device is kept there,
and a full one refuses it. An endless one and a full one give something for ever, the input gives
what there is to read from, and the others give nothing. -/
inductive Device where
  | null
  | endless
  | full
  | input
  | stream
  deriving DecidableEq, Repr

/-- What can stand at a place. -/
inductive Node where
  | directory
  | file (content : ByteArray)
  | device (device : Device)

/-- Where something can be written: to a file, which may be new, or to a device. -/
inductive Target where
  | file (names : List String)
  | device (device : Device)
  deriving DecidableEq, Repr

/-- The usual directories at the root. -/
def systemDirectories : List String :=
  ["bin", "boot", "dev", "etc", "home", "lib", "lib64", "media", "mnt", "opt", "proc", "root",
    "run", "sbin", "srv", "sys", "tmp", "usr", "var"]

/-- The devices, each by its place. -/
def devices : List (List String × Device) :=
  [(["dev", "null"], .null), (["dev", "zero"], .endless), (["dev", "random"], .endless),
    (["dev", "urandom"], .endless), (["dev", "full"], .full), (["dev", "stdin"], .input),
    (["dev", "stdout"], .stream), (["dev", "stderr"], .stream), (["dev", "tty"], .stream)]

/-- The greatest size of a name, in bytes. -/
def maxNameBytes : Nat := 255

/-- The size, in bytes, from which a path is too long. -/
def maxPathBytes : Nat := 4096

namespace Disk

/-- The disk with the given files, each by its path from a working directory. -/
def ofFiles (here : List String) (files : List (String × ByteArray)) : Disk :=
  ⟨here, files.map fun file => (here ++ (pathNames file.1).filter (· ≠ "."), file.2)⟩

/-- Makes a file, or changes the content of one. -/
def write (disk : Disk) (names : List String) (content : ByteArray) : Disk :=
  { disk with files := (names, content) :: disk.files.filter fun file => file.1 ≠ names }

/-- Whether a directory is there. -/
def isDirectory (disk : Disk) (names : List String) : Bool :=
  names.isPrefixOf disk.here ||
    systemDirectories.any (fun name => names = [name]) ||
    disk.files.any fun file => names.isPrefixOf file.1 && names ≠ file.1

/-- What stands at a place, if anything does. -/
def node? (disk : Disk) (names : List String) : Option Node :=
  if disk.isDirectory names then some .directory
  else
    match devices.lookup names with
    | some device => some (.device device)
    | none => (disk.files.lookup names).map .file

/-- What a name stands for in a directory. -/
def child? (disk : Disk) (directory : List String) (name : String) :
    Except Fault (Option Node) :=
  if name.utf8ByteSize > maxNameBytes then .error .nameTooLong
  else .ok (disk.node? (directory ++ [name]))

/-- Follows names from directory to directory. -/
def enter (disk : Disk) (directory : List String) : List String → Except Fault (List String)
  | [] => .ok directory
  | "." :: rest => disk.enter directory rest
  | ".." :: rest => disk.enter directory.dropLast rest
  | name :: rest =>
    match disk.child? directory name with
    | .error fault => .error fault
    | .ok (some .directory) => disk.enter (directory ++ [name]) rest
    | .ok (some _) => .error .notDirectory
    | .ok none => .error .notFound

/-- The directory in which the last name of a path is looked up. -/
def parent (disk : Disk) (path : String) : Except Fault (List String) :=
  if path.contains '\x00' then .error .nulInPath
  else if maxPathBytes ≤ path.utf8ByteSize then .error .nameTooLong
  else disk.enter (if isAbsolute path then [] else disk.here) (pathNames path).dropLast

/-- What a path leads to. -/
def find (disk : Disk) (path : String) : Except Fault Node := do
  let directory ← disk.parent path
  match (pathNames path).getLast? with
  | none | some "." | some ".." => return .directory
  | some name =>
    match ← disk.child? directory name with
    | some node => return node
    | none => throw .notFound

/-- Where a path says to write. In a path that ends in a slash, the last name is not looked up. -/
def target (disk : Disk) (path : String) : Except Fault Target := do
  let directory ← disk.parent path
  match (pathNames path).getLast? with
  | none | some "." | some ".." => throw .isDirectory
  | some name =>
    if endsInSlash path then throw .isDirectory
    match ← disk.child? directory name with
    | some .directory => throw .isDirectory
    | some (.device device) => return .device device
    | some (.file _) | none => return .file (directory ++ [name])

end Disk

end PrefixLogic.CommandLine
