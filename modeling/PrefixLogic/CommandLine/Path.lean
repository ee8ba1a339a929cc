/-!
# Paths

A path names a file by the directories on the way to it. Empty names, between two slashes or at
an end, lead nowhere. The written form of a path leaves them out, and the single dots too; two
leading slashes, and no other number of them above one, are kept.
-/

namespace PrefixLogic.CommandLine

/-- The names of a path, without the empty ones. -/
def pathNames (path : String) : List String :=
  ((path.toList.splitOn '/').map String.ofList).filter (· ≠ "")

/-- Whether a path starts at the root. -/
def isAbsolute (path : String) : Bool := path.toList.head? = some '/'

/-- Whether a path ends in a slash, which says that it leads to a directory. -/
def endsInSlash (path : String) : Bool := path.toList.getLast? = some '/'

/-- The slashes with which the written form of a path begins. -/
def pathRoot (path : String) : String :=
  match path.toList.takeWhile (· = '/') with
  | [] => ""
  | ['/', '/'] => "//"
  | _ => "/"

/-- The written form of a path. -/
def tidyPath (path : String) : String :=
  match pathRoot path, (pathNames path).filter (· ≠ ".") with
  | "", [] => "."
  | root, names => root ++ "/".intercalate names

end PrefixLogic.CommandLine
